import Mathlib.Data.Rat.Defs

namespace Graphorin.Provider

structure Cost where
  amount : Rat
  currency : String
  deriving DecidableEq

structure Usage where
  promptTokens : Rat
  completionTokens : Rat
  totalTokens : Rat
  reasoningTokens : Option Rat := none
  cachedReadTokens : Option Rat := none
  cacheWriteTokens : Option Rat := none
  cost : Option Cost := none
  deriving DecidableEq

def zeroUsage : Usage := { promptTokens := 0, completionTokens := 0, totalTokens := 0 }

end Graphorin.Provider
