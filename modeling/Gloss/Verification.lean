import Gloss.Verification.Judgement

/-!
# Verification

A verification binds the declaration markers of a fixture to declarations and
then judges every expectation.  The first fault ends it; a mismatch ends it
only when the options ask for that, and is a finding otherwise.
-/

namespace Gloss

/-- What the judgement of a fixture has come to. -/
structure Verification (ν : Type) where
  file : String
  declarations : Table String ν
  findings : List Finding
  deriving DecidableEq, Repr

namespace Verification

variable {ν δ κ : Type}

def failures (verification : Verification ν) : List Fault :=
  verification.findings.filterMap Finding.failure

def passed (verification : Verification ν) : Bool :=
  verification.findings.all Finding.passed

/-- The fault that sums up the failed expectations, if any failed. -/
def fault? (verification : Verification ν) : Option Fault :=
  if verification.failures.isEmpty then none
  else some (.verificationFailed verification.failures verification.file {})

def summary (verification : Verification ν) : String :=
  let total := verification.findings.length
  let failed := verification.failures.length
  verification.file ++
    s!": {total} check(s), {total - failed} passed, {failed} failed"

def toDocument (verification : Verification ν) : Document :=
  .object
    [("file", .text verification.file),
      ("passed", .boolean verification.passed),
      ("results", .list (verification.findings.map Finding.toDocument))]

/-- Binds declaration markers to the declarations around them, in order. -/
def bind (analysis : Analysis ν δ κ) (place : Int → Place) (declared : Table String ν) :
    List (String × Int) → Except Fault (Table String ν)
  | [] => .ok declared
  | (name, position) :: rest =>
      match analysis.model.declarationAt position with
      | none => .error (.of (.misplacedDeclaration name) (place position))
      | some node => bind analysis place (declared.insert name node) rest

variable [DecidableEq ν] [DecidableEq δ] [DecidableEq κ]

def judgeAll (bench : Bench ν δ κ) (failFast : Bool) :
    List Expectation → Except Fault (List Finding)
  | [] => .ok []
  | expectation :: rest =>
      match bench.judge expectation with
      | .error fault => .error fault
      | .ok failure =>
          match failFast, failure with
          | true, some mismatch => .error mismatch
          | _, _ =>
              (judgeAll bench failFast rest).map fun later => { expectation, failure } :: later

def verify (options : Options) (analysis : Analysis ν δ κ) (fixture : Fixture) :
    Except Fault (Verification ν) :=
  match bind analysis fixture.place .empty fixture.expectations.declarations.entries with
  | .error fault => .error fault
  | .ok declared =>
      let expectations :=
        if options.declarationsOnly then [] else fixture.expectations.inOrder
      let bench : Bench ν δ κ :=
        { analysis, prefixes := options.prefixes, declared, place := fixture.place }
      (judgeAll bench options.failFast expectations).map fun findings =>
        { file := fixture.file, declarations := declared, findings }

end Verification

end Gloss
