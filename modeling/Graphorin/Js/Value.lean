namespace Graphorin.Js

/-! JavaScript values as the runtime handles them: opaque payloads that are
copied around, looked into by field name, and pushed through JSON. -/

/-- What `JSON.stringify` degrades without an error. -/
inductive ForeignKind
  | nonFiniteNumber
  | bigint
  | function
  | symbol
  | map
  | set
  | date
  | regExp
  | binary
  | instance (className : String)
deriving DecidableEq

inductive JsValue
  | undefined
  | null
  | bool (value : Bool)
  | num (value : Rat)
  | str (value : String)
  | arr (items : List JsValue)
  | obj (fields : List (String × JsValue))
  | foreign (kind : ForeignKind)

/-- What `in` finds on every object besides its own keys. -/
def objectPrototype : List String :=
  ["constructor", "__defineGetter__", "__defineSetter__", "hasOwnProperty",
    "__lookupGetter__", "__lookupSetter__", "isPrototypeOf",
    "propertyIsEnumerable", "toString", "valueOf", "__proto__", "toLocaleString"]

namespace JsValue

mutual
def decEq : (left right : JsValue) → Decidable (left = right)
  | .undefined, .undefined => isTrue rfl
  | .null, .null => isTrue rfl
  | .bool a, .bool b =>
    if same : a = b then isTrue (by rw [same])
    else isFalse fun equal => same (JsValue.bool.inj equal)
  | .num a, .num b =>
    if same : a = b then isTrue (by rw [same])
    else isFalse fun equal => same (JsValue.num.inj equal)
  | .str a, .str b =>
    if same : a = b then isTrue (by rw [same])
    else isFalse fun equal => same (JsValue.str.inj equal)
  | .arr a, .arr b =>
    match decEqItems a b with
    | isTrue same => isTrue (by rw [same])
    | isFalse differ => isFalse fun equal => differ (JsValue.arr.inj equal)
  | .obj a, .obj b =>
    match decEqFields a b with
    | isTrue same => isTrue (by rw [same])
    | isFalse differ => isFalse fun equal => differ (JsValue.obj.inj equal)
  | .foreign a, .foreign b =>
    if same : a = b then isTrue (by rw [same])
    else isFalse fun equal => same (JsValue.foreign.inj equal)
  | .undefined, .null | .undefined, .bool _ | .undefined, .num _
  | .undefined, .str _ | .undefined, .arr _ | .undefined, .obj _
  | .undefined, .foreign _
  | .null, .undefined | .null, .bool _ | .null, .num _ | .null, .str _
  | .null, .arr _ | .null, .obj _ | .null, .foreign _
  | .bool _, .undefined | .bool _, .null | .bool _, .num _ | .bool _, .str _
  | .bool _, .arr _ | .bool _, .obj _ | .bool _, .foreign _
  | .num _, .undefined | .num _, .null | .num _, .bool _ | .num _, .str _
  | .num _, .arr _ | .num _, .obj _ | .num _, .foreign _
  | .str _, .undefined | .str _, .null | .str _, .bool _ | .str _, .num _
  | .str _, .arr _ | .str _, .obj _ | .str _, .foreign _
  | .arr _, .undefined | .arr _, .null | .arr _, .bool _ | .arr _, .num _
  | .arr _, .str _ | .arr _, .obj _ | .arr _, .foreign _
  | .obj _, .undefined | .obj _, .null | .obj _, .bool _ | .obj _, .num _
  | .obj _, .str _ | .obj _, .arr _ | .obj _, .foreign _
  | .foreign _, .undefined | .foreign _, .null | .foreign _, .bool _
  | .foreign _, .num _ | .foreign _, .str _ | .foreign _, .arr _
  | .foreign _, .obj _ => isFalse nofun

def decEqItems : (left right : List JsValue) → Decidable (left = right)
  | [], [] => isTrue rfl
  | [], _ :: _ => isFalse nofun
  | _ :: _, [] => isFalse nofun
  | a :: as, b :: bs =>
    match decEq a b, decEqItems as bs with
    | isTrue head, isTrue tail => isTrue (by rw [head, tail])
    | isFalse head, _ => isFalse fun equal => head (List.cons.inj equal).1
    | _, isFalse tail => isFalse fun equal => tail (List.cons.inj equal).2

def decEqFields : (left right : List (String × JsValue)) →
    Decidable (left = right)
  | [], [] => isTrue rfl
  | [], _ :: _ => isFalse nofun
  | _ :: _, [] => isFalse nofun
  | (k, a) :: as, (l, b) :: bs =>
    if key : k = l then
      match decEq a b, decEqFields as bs with
      | isTrue head, isTrue tail => isTrue (by rw [key, head, tail])
      | isFalse head, _ => isFalse fun equal =>
        head (Prod.mk.inj (List.cons.inj equal).1).2
      | _, isFalse tail => isFalse fun equal =>
        tail (List.cons.inj equal).2
    else isFalse fun equal => key (Prod.mk.inj (List.cons.inj equal).1).1
end

instance : DecidableEq JsValue := decEq

/-- `value[key]`, `undefined` when there is no such property. -/
def field : JsValue → String → JsValue
  | .obj fields, key =>
    match fields.find? fun entry => entry.1 == key with
    | some entry => entry.2
    | none => .undefined
  | _, _ => .undefined

def str? : JsValue → Option String
  | .str value => some value
  | _ => none

def num? : JsValue → Option Rat
  | .num value => some value
  | _ => none

def isUndefined : JsValue → Bool
  | .undefined => true
  | _ => false

/-- `isPlainObject` of the channel merger: any object that is not an array. -/
def fields? : JsValue → Option (List (String × JsValue))
  | .obj fields => some fields
  | _ => none

def items? : JsValue → Option (List JsValue)
  | .arr items => some items
  | _ => none

/-- `record[key]` where the record has no such key: `Object.prototype` has no keys of
its own to enumerate. -/
def inherited (key : String) : JsValue :=
  if key = "__proto__" then .obj []
  else if key ∈ objectPrototype then .foreign .function
  else .undefined

def member : List (String × JsValue) → String → JsValue
  | [], key => inherited key
  | (name, value) :: rest, key => if name = key then value else member rest key

mutual
def deepEqual : JsValue → JsValue → Bool
  | .undefined, .undefined => true
  | .null, .null => true
  | .bool a, .bool b => a == b
  | .num a, .num b => a == b
  | .str a, .str b => a == b
  | .arr a, .arr b => a.length == b.length && deepEqualItems a b
  | .obj a, .obj b => a.length == b.length && deepEqualFields a b
  | .foreign a, .foreign b => a == b
  | _, _ => false

def deepEqualItems : List JsValue → List JsValue → Bool
  | a :: as, b :: bs => deepEqual a b && deepEqualItems as bs
  | _, _ => true

def deepEqualFields : List (String × JsValue) → List (String × JsValue) → Bool
  | [], _ => true
  | (key, a) :: as, b => deepEqual a (member b key) && deepEqualFields as b
end

structure Offender where
  path : String
  kind : String
deriving DecidableEq

def kindName : ForeignKind → String
  | .nonFiniteNumber => "non-finite number"
  | .bigint => "bigint"
  | .function => "function"
  | .symbol => "symbol"
  | .map => "Map"
  | .set => "Set"
  | .date => "Date"
  | .regExp => "RegExp"
  | .binary => "binary buffer"
  | .instance className => "class instance (" ++ className ++ ")"

mutual
/-- Depth-first walk to the first value `JSON.stringify` would degrade;
`undefined` is tolerated. -/
def findNonJsonSafe : JsValue → String → Option Offender
  | .undefined, _ => none
  | .null, _ => none
  | .bool _, _ => none
  | .num _, _ => none
  | .str _, _ => none
  | .foreign kind, path => some ⟨path, kindName kind⟩
  | .arr items, path => findInItems items 0 path
  | .obj fields, path => findInFields fields path

def findInItems : List JsValue → Nat → String → Option Offender
  | [], _, _ => none
  | item :: rest, index, path =>
    match findNonJsonSafe item (path ++ "[" ++ toString index ++ "]") with
    | some offender => some offender
    | none => findInItems rest (index + 1) path

def findInFields : List (String × JsValue) → String → Option Offender
  | [], _ => none
  | (key, value) :: rest, path =>
    match findNonJsonSafe value (path ++ "." ++ key) with
    | some offender => some offender
    | none => findInFields rest path
end

mutual
/-- `JSON.parse(JSON.stringify(value))`: an `undefined` property disappears,
an `undefined` array slot comes back as `null`.  Foreign values never get
here, `findNonJsonSafe` has rejected them. -/
def throughJson : JsValue → JsValue
  | .arr items => .arr (itemsThroughJson items)
  | .obj fields => .obj (fieldsThroughJson fields)
  | .foreign _ => .null
  | value => value

def itemsThroughJson : List JsValue → List JsValue
  | [] => []
  | .undefined :: rest => .null :: itemsThroughJson rest
  | item :: rest => throughJson item :: itemsThroughJson rest

def fieldsThroughJson : List (String × JsValue) → List (String × JsValue)
  | [] => []
  | (_, .undefined) :: rest => fieldsThroughJson rest
  | (key, value) :: rest => (key, throughJson value) :: fieldsThroughJson rest
end

mutual
/-- `structuredClone` accepts the value: no function or symbol anywhere. -/
def cloneable : JsValue → Bool
  | .foreign .function => false
  | .foreign .symbol => false
  | .arr items => itemsCloneable items
  | .obj fields => fieldsCloneable fields
  | _ => true

def itemsCloneable : List JsValue → Bool
  | [] => true
  | item :: rest => cloneable item && itemsCloneable rest

def fieldsCloneable : List (String × JsValue) → Bool
  | [] => true
  | (_, value) :: rest => cloneable value && fieldsCloneable rest
end

mutual
/-- What survives JSON can be copied. -/
theorem cloneable_of_jsonSafe : ∀ (value : JsValue) (path : String),
    value.findNonJsonSafe path = none → value.cloneable = true
  | .undefined, _, _ => rfl
  | .null, _, _ => rfl
  | .bool _, _, _ => rfl
  | .num _, _, _ => rfl
  | .str _, _, _ => rfl
  | .foreign kind, path, safe => by cases safe
  | .arr items, path, safe => itemsCloneable_of_jsonSafe items 0 path safe
  | .obj fields, path, safe => fieldsCloneable_of_jsonSafe fields path safe

theorem itemsCloneable_of_jsonSafe : ∀ (items : List JsValue) (index : Nat)
    (path : String), findInItems items index path = none →
      itemsCloneable items = true
  | [], _, _, _ => rfl
  | item :: rest, index, path, safe => by
      rw [findInItems] at safe
      split at safe
      · cases safe
      · rename_i here
        rw [itemsCloneable, cloneable_of_jsonSafe item _ here,
          itemsCloneable_of_jsonSafe rest _ path safe]
        rfl

theorem fieldsCloneable_of_jsonSafe : ∀ (fields : List (String × JsValue))
    (path : String), findInFields fields path = none → fieldsCloneable fields = true
  | [], _, _ => rfl
  | (key, value) :: rest, path, safe => by
      rw [findInFields] at safe
      split at safe
      · cases safe
      · rename_i here
        rw [fieldsCloneable, cloneable_of_jsonSafe value _ here,
          fieldsCloneable_of_jsonSafe rest path safe]
        rfl
end

end JsValue

end Graphorin.Js
