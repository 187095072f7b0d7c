import Gloss.Table

/-!
# Bindings

What became of the references of a file.  A reference has a target, is
ambiguous between several, or is unresolved; recording a target takes the
other outcomes back.
-/

namespace Gloss

/-- The outcomes of references `ν` with meanings `δ`. -/
structure Bindings (ν δ : Type) where
  targets : Table ν δ
  ambiguous : Table ν (List δ)
  unresolved : List ν
  deriving DecidableEq, Repr

namespace Bindings

variable {ν δ : Type} [DecidableEq ν]

def empty : Bindings ν δ := ⟨.empty, .empty, []⟩

def record (bindings : Bindings ν δ) (reference : ν) (target : δ) : Bindings ν δ where
  targets := bindings.targets.insert reference target
  ambiguous := bindings.ambiguous.erase reference
  unresolved := bindings.unresolved.filter (· ≠ reference)

def markAmbiguous (bindings : Bindings ν δ) (reference : ν) (candidates : List δ) :
    Bindings ν δ where
  targets := bindings.targets.erase reference
  ambiguous := bindings.ambiguous.insert reference candidates
  unresolved := bindings.unresolved

def markUnresolved (bindings : Bindings ν δ) (reference : ν) : Bindings ν δ where
  targets := bindings.targets.erase reference
  ambiguous := bindings.ambiguous
  unresolved :=
    if reference ∈ bindings.unresolved then bindings.unresolved
    else bindings.unresolved ++ [reference]

def isAmbiguous (bindings : Bindings ν δ) (reference : ν) : Bool :=
  bindings.ambiguous.contains reference

def isUnresolved (bindings : Bindings ν δ) (reference : ν) : Bool :=
  reference ∈ bindings.unresolved

end Bindings

end Gloss
