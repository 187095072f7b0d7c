import Gloss.CommandLine
import Mathlib.Data.List.Perm.Basic

/-!
# The exit code of a check

Checking a fixture leaves the files as they are, and what it comes to depends on
the files alone.  So the check of several fixtures comes to what the checks of
each of them alone come to: to the worst of their codes, unless one of them
breaks off the run.  A run that is broken off ends with the code of a failure.
-/

namespace Gloss.CommandLine

theorem worse_number (first second : ExitCode) :
    (worse first second).number = max first.number second.number := by
  cases first <;> cases second <;> rfl

/-- The code with which a program ends that did not get to its last step. -/
def Ending.code : Ending → Nat
  | .exit code => code
  | .broken _ => ExitCode.failure.number

namespace Session

variable {α β : Type} {action : Session α} {next : α → Session β} {state after : SessionState}

def runFrom (action : Session α) (state : SessionState) : Except Ending α × SessionState :=
  action.run.run state

theorem runFrom_bind_of_ok {value : α} (run : action.runFrom state = (.ok value, after)) :
    (action >>= next).runFrom state = (next value).runFrom after := by
  have same : action.run.run state = (.ok value, after) := run
  simp only [runFrom, ExceptT.run_bind, StateT.run_bind, same]
  rfl

theorem runFrom_bind_of_error {ending : Ending}
    (run : action.runFrom state = (.error ending, after)) :
    (action >>= next).runFrom state = (.error ending, after) := by
  have same : action.run.run state = (.error ending, after) := run
  simp only [runFrom, ExceptT.run_bind, StateT.run_bind, same]
  rfl

/-- Where the step ends the run, it does so with the code of a failure. -/
def FailsOnly (action : Session α) : Prop :=
  ∀ state ending, (action.runFrom state).1 = .error ending → ending.code = ExitCode.failure.number

namespace FailsOnly

theorem of_pure (value : α) : FailsOnly (pure value) := nofun

theorem of_broken (message : String) : FailsOnly (throw (.broken message) : Session α) := by
  rintro state ending ⟨⟩
  rfl

theorem of_failure : FailsOnly (throw (.exit ExitCode.failure.number) : Session α) := by
  rintro state ending ⟨⟩
  rfl

theorem of_modify (change : SessionState → SessionState) : FailsOnly (modify change) := nofun

theorem of_get {next : SessionState → Session β} (rest : ∀ state, FailsOnly (next state)) :
    FailsOnly (get >>= next) := fun state => rest state state

theorem bind (first : FailsOnly action) (rest : ∀ value, FailsOnly (next value)) :
    FailsOnly (action >>= next) := by
  intro state ending failed
  rcases run : action.runFrom state with ⟨early | value, after⟩
  · rw [runFrom_bind_of_error run] at failed
    cases failed
    exact first state ending (by rw [run])
  · rw [runFrom_bind_of_ok run] at failed
    exact rest value after ending failed

theorem of_orBreak (result : Except FileFault α) : FailsOnly (orBreak result) := by
  cases result with
  | ok value => exact of_pure value
  | error fault => exact of_broken _

theorem of_locate (label written : String) : FailsOnly (locate label written) := by
  refine of_get fun state => (of_orBreak _).bind fun path => ?_
  split
  · exact of_pure path
  · exact (of_modify _).bind fun _ => of_failure

end FailsOnly

/-- The step does not change the files, and its result depends on them alone. -/
structure Looks (action : Session α) : Prop where
  result : ∀ state other, state.files = other.files →
    (action.runFrom state).1 = (action.runFrom other).1
  files : ∀ state, (action.runFrom state).2.files = state.files

namespace Looks

theorem of_pure (value : α) : Looks (pure value) := ⟨fun _ _ _ => rfl, fun _ => rfl⟩

theorem of_throw (ending : Ending) : Looks (throw ending : Session α) :=
  ⟨fun _ _ _ => rfl, fun _ => rfl⟩

theorem of_modify {change : SessionState → SessionState}
    (keeps : ∀ state, (change state).files = state.files) : Looks (modify change) :=
  ⟨fun _ _ _ => rfl, keeps⟩

theorem of_get {step : SessionState → Session β} (looks : ∀ state, Looks (step state))
    (same : ∀ state other, state.files = other.files → step state = step other) :
    Looks (get >>= step) where
  result state other sameFiles := by
    change ((step state).runFrom state).1 = ((step other).runFrom other).1
    rw [same state other sameFiles]
    exact (looks other).result state other sameFiles
  files state := (looks state).files state

theorem bind (first : Looks action) (rest : ∀ value, Looks (next value)) :
    Looks (action >>= next) where
  result state other same := by
    have results := first.result state other same
    have kept := first.files state
    have otherKept := first.files other
    rcases otherRun : action.runFrom other with ⟨result, otherAfter⟩
    rcases run : action.runFrom state with ⟨ending | value, after⟩ <;>
      rw [run, otherRun] at results <;> cases results
    · rw [runFrom_bind_of_error run, runFrom_bind_of_error otherRun]
    · rw [runFrom_bind_of_ok run, runFrom_bind_of_ok otherRun]
      rw [run] at kept
      rw [otherRun] at otherKept
      exact (rest value).result after otherAfter (kept.trans (same.trans otherKept.symm))
  files state := by
    have kept := first.files state
    rcases run : action.runFrom state with ⟨ending | value, after⟩ <;> rw [run] at kept
    · rw [runFrom_bind_of_error run]
      exact kept
    · rw [runFrom_bind_of_ok run]
      exact ((rest value).files after).trans kept

theorem of_orBreak (result : Except FileFault α) : Looks (orBreak result) := by
  cases result with
  | ok value => exact of_pure value
  | error fault => exact of_throw _

theorem of_log (level : LogLevel) (text : String) : Looks (log level text) :=
  of_modify fun _ => rfl

theorem of_complain (line : String) : Looks (complain line) := of_modify fun _ => rfl

theorem of_print (text : String) : Looks (print text) := by
  refine of_modify fun state => ?_
  split <;> rfl

theorem of_locate (label written : String) : Looks (locate label written) := by
  refine of_get (fun state => (of_orBreak _).bind fun path => ?_) fun state other same => ?_
  · split
    · exact of_pure path
    · exact (of_log _ _).bind fun _ => of_throw _
  · simp only [same]

theorem of_textAt (path : Path) : Looks (textAt path) := by
  refine of_get (fun state => ?_) fun state other same => ?_
  · split
    · exact of_pure _
    · split <;> exact of_pure _
  · simp only [same]

theorem of_readText (path : Path) : Looks (readText path) := by
  refine (of_textAt path).bind fun read => ?_
  split
  · exact of_pure _
  · exact of_throw _

theorem of_checkBy (analyzer : Named) (options : Options) (file : String) (text : List Char) :
    Looks (checkBy analyzer options file text) := by
  unfold checkBy
  split
  · split <;> first | exact of_pure _ | exact of_throw _
  all_goals exact of_pure _

theorem of_checkFixture (request : CheckRequest) (analyzer : Named) (options : Options)
    (written : String) : Looks (checkFixture request analyzer options written) := by
  refine (of_locate _ _).bind fun path => (of_readText path).bind fun text => ?_
  refine (of_checkBy analyzer options path.render text).bind fun checked => ?_
  split
  · exact (of_complain _).bind fun _ => of_pure _
  · exact (of_print _).bind fun _ => of_pure _

end Looks

namespace FailsOnly

theorem of_textAt (path : Path) : FailsOnly (textAt path) := by
  refine of_get fun state => ?_
  split
  · exact of_pure _
  · split <;> exact of_pure _

theorem of_readText (path : Path) : FailsOnly (readText path) := by
  refine (of_textAt path).bind fun read => ?_
  split
  · exact of_pure _
  · exact of_broken _

theorem of_checkBy (analyzer : Named) (options : Options) (file : String) (text : List Char) :
    FailsOnly (checkBy analyzer options file text) := by
  unfold checkBy
  split
  · split <;> first | exact of_pure _ | exact of_broken _
  all_goals exact of_pure _

theorem of_checkFixture (request : CheckRequest) (analyzer : Named) (options : Options)
    (written : String) : FailsOnly (checkFixture request analyzer options written) := by
  refine (of_locate _ _).bind fun path => (of_readText path).bind fun text => ?_
  refine (of_checkBy analyzer options path.render text).bind fun checked => ?_
  split
  · exact (of_modify _).bind fun _ => of_pure _
  · exact (of_modify _).bind fun _ => of_pure _

end FailsOnly

end Session

open Session

section Fixtures

variable (request : CheckRequest) (analyzer : Named) (options : Options)

def fixtureCode : Except Fault (Verification NodeRef) → ExitCode
  | .error fault => checkCode fault
  | .ok verification => if verification.passed then .success else .mismatch

def verified : Except Fault (Verification NodeRef) → List (Verification NodeRef)
  | .error _ => []
  | .ok verification => [verification]

theorem checkFixtures_cons (worst : ExitCode) (verifications : List (Verification NodeRef))
    (written : String) (rest : List String) :
    checkFixtures request analyzer options worst verifications (written :: rest) =
      checkFixture request analyzer options written >>= fun checked =>
        checkFixtures request analyzer options (worse worst (fixtureCode checked))
          (verifications ++ verified checked) rest := by
  rw [checkFixtures]
  congr 1
  funext checked
  cases checked with
  | error fault => rw [verified, List.append_nil]; rfl
  | ok verification => rfl

/-- The code of a fixture in these files, or nothing if it breaks off the run. -/
def codeIn? (files : Files) (written : String) : Option ExitCode :=
  match ((checkFixture request analyzer options written).runFrom { files }).1 with
  | .ok checked => some (fixtureCode checked)
  | .error _ => none

theorem runFrom_checkFixture (state : SessionState) (written : String) :
    (∃ checked after,
      (checkFixture request analyzer options written).runFrom state = (.ok checked, after) ∧
        after.files = state.files ∧
        codeIn? request analyzer options state.files written = some (fixtureCode checked)) ∨
    ∃ ending after,
      (checkFixture request analyzer options written).runFrom state = (.error ending, after) ∧
        ending.code = ExitCode.failure.number ∧
        codeIn? request analyzer options state.files written = none := by
  have looks := Looks.of_checkFixture request analyzer options written
  have kept := looks.files state
  have result := looks.result state { files := state.files } rfl
  rcases run : (checkFixture request analyzer options written).runFrom state with
    ⟨ending | checked, after⟩ <;> rw [run] at kept result
  · refine .inr ⟨ending, after, rfl, ?_, by rw [codeIn?, ← result]⟩
    exact FailsOnly.of_checkFixture request analyzer options written state ending (by rw [run])
  · exact .inl ⟨checked, after, rfl, kept, by rw [codeIn?, ← result]⟩

/-- Fixtures that do not break off the run make up the worst of their codes. -/
theorem runFrom_checkFixtures {fixtures : List String} {codes : List ExitCode}
    {state : SessionState} (worst : ExitCode) (verifications : List (Verification NodeRef))
    (known : fixtures.map (codeIn? request analyzer options state.files) = codes.map some) :
    ∃ found after,
      (checkFixtures request analyzer options worst verifications fixtures).runFrom state =
        (.ok (found, codes.foldl worse worst), after) := by
  induction fixtures generalizing codes state worst verifications with
  | nil =>
      cases codes with
      | nil => exact ⟨_, _, rfl⟩
      | cons code codes => cases known
  | cons written rest ih =>
      cases codes with
      | nil => cases known
      | cons code codes =>
          obtain ⟨isCode, restKnown⟩ := List.cons.inj known
          rw [checkFixtures_cons]
          obtain ⟨checked, after, run, kept, hasCode⟩ | ⟨ending, after, -, -, noCode⟩ :=
            runFrom_checkFixture request analyzer options state written
          · rw [runFrom_bind_of_ok run]
            have same : fixtureCode checked = code := Option.some.inj (hasCode.symm.trans isCode)
            subst same
            rw [← kept] at restKnown
            exact ih _ _ restKnown
          · rw [noCode] at isCode
            cases isCode

/-- A fixture that breaks off the run does so in any list. -/
theorem runFrom_checkFixtures_of_none {fixtures : List String} {state : SessionState}
    (worst : ExitCode) (verifications : List (Verification NodeRef))
    (breaks : ∃ written ∈ fixtures, codeIn? request analyzer options state.files written = none) :
    ∃ ending after,
      (checkFixtures request analyzer options worst verifications fixtures).runFrom state =
        (.error ending, after) ∧ ending.code = ExitCode.failure.number := by
  induction fixtures generalizing state worst verifications with
  | nil =>
      obtain ⟨_, isMember, -⟩ := breaks
      cases isMember
  | cons written rest ih =>
      rw [checkFixtures_cons]
      obtain ⟨checked, after, run, kept, hasCode⟩ | ⟨ending, after, run, code, -⟩ :=
        runFrom_checkFixture request analyzer options state written
      · rw [runFrom_bind_of_ok run]
        apply ih
        obtain ⟨other, isMember, noCode⟩ := breaks
        rcases List.mem_cons.mp isMember with rfl | inRest
        · rw [hasCode] at noCode
          cases noCode
        · exact ⟨other, inRest, by rw [kept, noCode]⟩
      · exact ⟨ending, after, runFrom_bind_of_error run, code⟩

end Fixtures

theorem number_foldl_worse (codes : List ExitCode) (worst : ExitCode) :
    (codes.foldl worse worst).number = (codes.map ExitCode.number).foldl max worst.number := by
  induction codes generalizing worst with
  | nil => rfl
  | cons code codes ih => rw [List.foldl_cons, ih, worse_number, List.map_cons, List.foldl_cons]

section Request

variable (files : Files) (request : CheckRequest)

/-- What a check does before its first fixture: either it has failed, or the
analyzer and the options are known and the output is open. -/
def begin (request : CheckRequest) : Session (Except ExitCode (Named × Options)) := do
  match Named.load request.analyzer with
  | .error fault => do
      Session.log .error
        ("Cannot load analyzer " ++ request.analyzer ++ ": " ++ fault.message)
      return .error .failure
  | .ok analyzer => do
      match ← chosenOptions request with
      | .error message => do
          Session.log .error
            ("Bad config file " ++ request.options.getD "" ++ ": " ++ message)
          return .error .failure
      | .ok options => do
          Session.openOutput request.output
          return .ok (analyzer, options)

/-- The check of other fixtures in the same way. -/
def CheckRequest.of (request : CheckRequest) (fixtures : List String) : CheckRequest :=
  { request with fixtures }

theorem checkFixtures_of (others : List String) (analyzer : Named) (options : Options)
    (worst : ExitCode) (verifications : List (Verification NodeRef)) (fixtures : List String) :
    checkFixtures (request.of others) analyzer options worst verifications fixtures =
      checkFixtures request analyzer options worst verifications fixtures := by
  induction fixtures generalizing worst verifications with
  | nil => rfl
  | cons written rest ih =>
      rw [checkFixtures_cons, checkFixtures_cons]
      congr 1
      funext checked
      exact ih _ _

theorem checkAll_eq (fixtures : List String) :
    checkAll (request.of fixtures) = begin request >>= fun begun =>
      match begun with
      | .error code => pure code
      | .ok (analyzer, options) =>
          checkFixtures request analyzer options .success [] fixtures >>= fun checked =>
            Session.print (closingText request.format checked.1) >>= fun _ => pure checked.2 := by
  have chosen : chosenOptions (request.of fixtures) = chosenOptions request := rfl
  have checked := checkFixtures_of request fixtures
  have load : Named.load (request.of fixtures).analyzer = Named.load request.analyzer := rfl
  unfold checkAll begin
  rw [chosen, load]
  simp only [checked]
  cases Named.load request.analyzer with
  | error fault => simp only [CheckRequest.of, bind_assoc, pure_bind]
  | ok analyzer =>
      simp only [bind_assoc]
      congr 1
      funext options
      cases options <;> simp only [CheckRequest.of, bind_assoc, pure_bind]

/-- What the check of fixtures comes to, if the run is not broken off. -/
def checked (fixtures : List String) : Except Ending ExitCode :=
  ((checkAll (request.of fixtures)).runFrom { files }).1

/-- The exit code of the check of fixtures. -/
def checkExit (fixtures : List String) : Nat := (outcome files (.check (request.of fixtures))).exit

/-- The check of a fixture alone is broken off, as it is when there is no file or
it cannot be read. -/
def BreaksOff (written : String) : Prop := (checked files request [written]).isOk = false

theorem checkExit_eq (fixtures : List String) :
    checkExit files request fixtures =
      match checked files request fixtures with
      | .ok code => code.number
      | .error ending => ending.code := by
  have performs : (perform (.check (request.of fixtures))).run.run { files } =
      (checkAll (request.of fixtures)).runFrom { files } := rfl
  unfold checkExit outcome checked
  rw [performs]
  rcases (checkAll (request.of fixtures)).runFrom { files } with ⟨⟨_ | _⟩ | _, _⟩ <;> rfl

theorem failsOnly_logEach (remarks : List String) :
    FailsOnly (forIn remarks PUnit.unit fun remark _ => do
      log .warning remark
      pure (ForInStep.yield PUnit.unit)) := by
  induction remarks with
  | nil => exact .of_pure _
  | cons remark rest ih =>
      rw [List.forIn_cons, bind_assoc]
      exact (FailsOnly.of_modify _).bind fun _ => (FailsOnly.of_pure _).bind fun
        | .yield _ => ih
        | .done _ => .of_pure _

theorem failsOnly_readOptions (path : Path) : FailsOnly (readOptions path) := by
  refine (FailsOnly.of_textAt path).bind fun read => ?_
  split
  · exact .of_pure _
  · exact (failsOnly_logEach _).bind fun _ => .of_pure _

theorem failsOnly_chosenOptions : FailsOnly (chosenOptions request) := by
  unfold chosenOptions
  dsimp only
  split
  · exact .of_pure _
  · exact .of_pure _
  · exact (FailsOnly.of_locate _ _).bind fun path =>
      (failsOnly_readOptions path).bind fun _ => .of_pure _

theorem failsOnly_openOutput (output : Option String) : FailsOnly (openOutput output) := by
  unfold openOutput
  split
  · exact .of_pure _
  · exact .of_pure _
  · exact .of_get fun state => (FailsOnly.of_orBreak _).bind fun path =>
      (FailsOnly.of_orBreak _).bind fun files => .of_modify _

theorem failsOnly_begin : FailsOnly (begin request) := by
  unfold begin
  split
  · exact (FailsOnly.of_modify _).bind fun _ => .of_pure _
  · refine (failsOnly_chosenOptions request).bind fun chosen => ?_
    split
    · exact (FailsOnly.of_modify _).bind fun _ => .of_pure _
    · exact (failsOnly_openOutput _).bind fun _ => .of_pure _

theorem foldl_worse_of_forall {code : ExitCode} {codes : List ExitCode} (nonempty : codes ≠ [])
    (all : ∀ other ∈ codes, other = code) : codes.foldl worse .success = code := by
  have stays (more : List ExitCode) (all : ∀ other ∈ more, other = code) :
      more.foldl worse code = code := by
    induction more with
    | nil => rfl
    | cons other rest ih =>
        obtain ⟨rfl, restAll⟩ := List.forall_mem_cons.mp all
        have same : worse other other = other := if_neg (Nat.lt_irrefl _)
        rw [List.foldl_cons, same]
        exact ih restAll
  cases codes with
  | nil => exact absurd rfl nonempty
  | cons other rest =>
      obtain ⟨rfl, restAll⟩ := List.forall_mem_cons.mp all
      have first : worse .success other = other := by cases other <;> rfl
      rw [List.foldl_cons, first]
      exact stays rest restAll

/-- When the check gets to its fixtures, what it comes to follows from their codes. -/
theorem checked_of_begun {analyzer : Named} {options : Options} {state : SessionState}
    (begun : (begin request).runFrom { files } = (.ok (.ok (analyzer, options)), state))
    (fixtures : List String) :
    (∀ codes : List ExitCode,
      fixtures.map (codeIn? request analyzer options state.files) = codes.map some →
        checked files request fixtures = .ok (codes.foldl worse .success)) ∧
    ((∃ written ∈ fixtures, codeIn? request analyzer options state.files written = none) →
      ∃ ending, checked files request fixtures = .error ending ∧
        ending.code = ExitCode.failure.number) := by
  unfold checked
  rw [checkAll_eq, runFrom_bind_of_ok begun]
  refine ⟨fun codes known => ?_, fun breaks => ?_⟩
  · obtain ⟨found, after, checks⟩ :=
      runFrom_checkFixtures request analyzer options .success [] known
    simp only
    rw [runFrom_bind_of_ok checks]
    rfl
  · obtain ⟨ending, after, checks, code⟩ :=
      runFrom_checkFixtures_of_none request analyzer options .success [] breaks
    refine ⟨ending, ?_, code⟩
    simp only
    rw [runFrom_bind_of_error checks]

/-- There is a code for each fixture, or none if it breaks off the run, and what
the check of fixtures comes to follows from these codes. -/
theorem exists_codes :
    ∃ code? : String → Option ExitCode, ∀ fixtures ≠ [],
      (∀ codes : List ExitCode, fixtures.map code? = codes.map some →
        checked files request fixtures = .ok (codes.foldl worse .success)) ∧
      ((∃ written ∈ fixtures, code? written = none) →
        ∃ ending, checked files request fixtures = .error ending ∧
          ending.code = ExitCode.failure.number) := by
  rcases begun : (begin request).runFrom { files } with
    ⟨ending | code | ⟨analyzer, options⟩, state⟩
  · refine ⟨fun _ => none, fun fixtures nonempty => ⟨fun codes known => ?_, fun _ => ?_⟩⟩
    · cases fixtures <;> cases codes <;> first | exact absurd rfl nonempty | cases known
    · refine ⟨ending, by rw [checked, checkAll_eq, runFrom_bind_of_error begun], ?_⟩
      exact failsOnly_begin request { files } ending (by rw [begun])
  · refine ⟨fun _ => some code, fun fixtures nonempty => ⟨fun codes known => ?_, fun none => ?_⟩⟩
    · have all : ∀ other ∈ codes, other = code := by
        intro other isMember
        have inMap : some other ∈ fixtures.map fun _ => some code :=
          known ▸ List.mem_map_of_mem isMember
        obtain ⟨-, -, same⟩ := List.mem_map.mp inMap
        exact (Option.some.inj same).symm
      have codesNonempty : codes ≠ [] := by
        rintro rfl
        exact nonempty (List.map_eq_nil_iff.mp known)
      rw [checked, checkAll_eq, runFrom_bind_of_ok begun, foldl_worse_of_forall codesNonempty all]
      rfl
    · obtain ⟨_, -, isNone⟩ := none
      cases isNone
  · exact ⟨codeIn? request analyzer options state.files,
      fun fixtures _ => checked_of_begun files request begun fixtures⟩

/-- The text that a written path leads to. -/
def Files.text? (files : Files) (written : String) : Option (List Char) := do
  let path ← (files.resolve written).toOption
  let bytes ← files.contents.get? path
  (Text.Utf8.decode bytes).toOption

theorem runFrom_locate_of_error {files : Files} {written label : String} {fault : FileFault}
    (resolved : files.resolve written = .error fault) :
    (locate label written).runFrom { files } = (.error (.broken fault.message), { files }) := by
  have located : (locate label written).runFrom { files } =
      (orBreak (files.resolve written) >>= _).runFrom { files } := rfl
  rw [located, resolved]
  rfl

theorem runFrom_locate_of_ok {files : Files} {written : String} {path : Path} (label : String)
    (resolved : files.resolve written = .ok path) :
    (locate label written).runFrom { files } =
      match files.entry? path with
      | some _ => (.ok path, { files })
      | none => (.error (.exit ExitCode.failure.number),
          { files, log := [{ level := .error, text := label ++ " not found: " ++ path.render }] }) := by
  have located : (locate label written).runFrom { files } =
      (orBreak (files.resolve written) >>= fun path => match files.entry? path with
        | some _ => pure path
        | none => do
            log .error (label ++ " not found: " ++ path.render)
            throw (.exit ExitCode.failure.number)).runFrom { files } := rfl
  rw [located, resolved]
  cases found : files.entry? path <;> simp only [orBreak, pure_bind, found] <;> rfl

theorem runFrom_readText (files : Files) (path : Path) :
    (readText path).runFrom { files } =
      match files.contents.get? path with
      | none => (.error (.broken (FileFault.isDirectory path).message), { files })
      | some bytes =>
          match Text.Utf8.decode bytes with
          | .error defect => (.error (.broken defect.message), { files })
          | .ok text => (.ok (Text.withLineFeeds text), { files }) := by
  have read : (textAt path).runFrom { files } =
      (match files.contents.get? path with
        | none => pure (.error (FileFault.isDirectory path).message)
        | some bytes =>
            match Text.Utf8.decode bytes with
            | .error defect => pure (.error defect.message)
            | .ok text => pure (.ok (Text.withLineFeeds text)) : Session _).runFrom { files } := rfl
  cases found : files.contents.get? path with
  | none =>
      rw [found] at read
      exact runFrom_bind_of_ok read
  | some bytes =>
      cases decoded : Text.Utf8.decode bytes <;> simp only [found, decoded] at read ⊢ <;>
        exact runFrom_bind_of_ok read

/-- A step that goes on with the text of a fixture breaks off just when there is
none. -/
theorem runFrom_read {β : Type} (files : Files) (written : String) (next : Path → List Char → Session β) :
    match files.text? written with
    | none => ∃ ending after, (locate "fixture" written >>= fun path =>
        readText path >>= next path).runFrom { files } = (.error ending, after)
    | some text => ∃ path, (locate "fixture" written >>= fun path =>
        readText path >>= next path).runFrom { files } =
          (next path (Text.withLineFeeds text)).runFrom { files } := by
  cases resolved : files.resolve written with
  | error fault =>
      simp only [Files.text?, resolved, Except.toOption, Option.bind_eq_bind, Option.bind_none]
      exact ⟨_, _, runFrom_bind_of_error (runFrom_locate_of_error resolved)⟩
  | ok path =>
      have located := runFrom_locate_of_ok "fixture" resolved
      have read := runFrom_readText files path
      cases content : files.contents.get? path with
      | none =>
          simp only [Files.text?, resolved, content, Except.toOption, Option.bind_eq_bind,
            Option.bind_some, Option.bind_none]
          cases found : files.entry? path with
          | none =>
              rw [found] at located
              exact ⟨_, _, runFrom_bind_of_error located⟩
          | some entry =>
              rw [found] at located
              rw [content] at read
              rw [runFrom_bind_of_ok located]
              exact ⟨_, _, runFrom_bind_of_error read⟩
      | some bytes =>
          have found : files.entry? path = some (.file bytes) := by rw [Files.entry?, content]
          rw [found] at located
          rw [content] at read
          cases decoded : Text.Utf8.decode bytes with
          | error defect =>
              simp only [Files.text?, resolved, content, decoded, Except.toOption,
                Option.bind_eq_bind, Option.bind_some]
              simp only [decoded] at read
              rw [runFrom_bind_of_ok located]
              exact ⟨_, _, runFrom_bind_of_error read⟩
          | ok text =>
              simp only [Files.text?, resolved, content, decoded, Except.toOption,
                Option.bind_eq_bind, Option.bind_some]
              simp only [decoded] at read
              rw [runFrom_bind_of_ok located]
              exact ⟨path, runFrom_bind_of_ok read⟩

def conclude (request : CheckRequest) :
    Except Fault (Verification NodeRef) → Session (Except Fault (Verification NodeRef))
  | .error fault => do
      complain fault.render
      return .error fault
  | .ok verification => do
      print (verificationText request.format verification)
      return .ok verification

theorem checkFixture_eq (analyzer : Named) (options : Options) (written : String) :
    checkFixture request analyzer options written =
      locate "fixture" written >>= fun path => readText path >>= fun text =>
        checkBy analyzer options path.render text >>= conclude request := rfl

/-- The function that only reads a text is no analyzer; with any other one a
fixture breaks off the run just when it has no text. -/
theorem codeIn?_eq_none_iff {analyzer : Named} (options : Options) (analyzes : analyzer ≠ .parse)
    (written : String) :
    codeIn? request analyzer options files written = none ↔ files.text? written = none := by
  have concludes (file : String) (text : List Char) : ∃ checked after,
      (checkBy analyzer options file text >>= conclude request).runFrom { files } =
        (.ok checked, after) := by
    obtain ⟨result, checks⟩ : ∃ result, checkBy analyzer options file text = pure result := by
      cases analyzer <;> first | exact absurd rfl analyzes | exact ⟨_, rfl⟩
    rw [checks, pure_bind]
    cases result <;> exact ⟨_, _, rfl⟩
  have read := runFrom_read files written fun path text =>
    checkBy analyzer options path.render text >>= conclude request
  rw [codeIn?, checkFixture_eq]
  cases found : files.text? written with
  | none =>
      simp only [found] at read
      obtain ⟨ending, after, breaks⟩ := read
      rw [breaks]
      exact ⟨fun _ => rfl, fun _ => rfl⟩
  | some text =>
      simp only [found] at read
      obtain ⟨path, continues⟩ := read
      obtain ⟨result, after, checks⟩ := concludes path.render (Text.withLineFeeds text)
      rw [continues, checks]
      exact ⟨nofun, nofun⟩

theorem max?_eq_foldl {numbers : List Nat} (nonempty : numbers ≠ []) :
    numbers.max? = some (numbers.foldl max 0) := by
  cases numbers with
  | nil => exact absurd rfl nonempty
  | cons number rest => rw [List.max?_cons', List.foldl_cons, Nat.zero_max]

/-- Whether one of the fixtures breaks off the run, and which code the check of the
fixtures has, both told from the checks of each fixture alone. -/
theorem checkExit_eq_foldl {fixtures : List String} (nonempty : fixtures ≠ []) :
    ((∀ written ∈ fixtures, ¬ BreaksOff files request written) →
      checkExit files request fixtures =
        (fixtures.map fun written => checkExit files request [written]).foldl max 0) ∧
    ((∃ written ∈ fixtures, BreaksOff files request written) →
      checkExit files request fixtures = ExitCode.failure.number) := by
  obtain ⟨code?, decides⟩ := exists_codes files request
  have alone {written : String} {code : ExitCode} (isCode : code? written = some code) :
      checked files request [written] = .ok code := by
    have known : [written].map code? = [code].map some := congrArg (fun code => [code]) isCode
    have first : [code].foldl worse .success = code := by cases code <;> rfl
    rw [(decides _ (List.cons_ne_nil _ _)).1 [code] known, first]
  have breaks_iff (written : String) : BreaksOff files request written ↔ code? written = none := by
    cases isCode : code? written with
    | some code => simp [BreaksOff, alone isCode, Except.isOk, Except.toBool]
    | none =>
        obtain ⟨ending, broken, -⟩ :=
          (decides [written] (List.cons_ne_nil _ _)).2 ⟨written, List.mem_singleton_self _, isCode⟩
        simp [BreaksOff, broken, Except.isOk, Except.toBool]
  simp only [breaks_iff]
  refine ⟨fun known => ?_, fun breaks => ?_⟩
  · let codes := fixtures.map fun written => (code? written).getD .success
    have isCodes : fixtures.map code? = codes.map some := by
      rw [List.map_map]
      refine List.map_congr_left fun written isFixture => ?_
      obtain ⟨code, isCode⟩ := Option.ne_none_iff_exists'.mp (known written isFixture)
      rw [Function.comp_apply, isCode, Option.getD_some]
    have numbers : codes.map ExitCode.number =
        fixtures.map fun written => checkExit files request [written] := by
      rw [List.map_map]
      refine List.map_congr_left fun written isFixture => ?_
      obtain ⟨code, isCode⟩ := Option.ne_none_iff_exists'.mp (known written isFixture)
      rw [Function.comp_apply, isCode, Option.getD_some, checkExit_eq, alone isCode]
    rw [checkExit_eq, (decides fixtures nonempty).1 codes isCodes, ← numbers]
    exact number_foldl_worse codes .success
  · obtain ⟨ending, broken, code⟩ := (decides fixtures nonempty).2 breaks
    rw [checkExit_eq, broken]
    exact code

/-- Once the analyzer and the options are known and the output is open, the check of
a fixture is broken off just when no text is found where its path leads. -/
theorem breaksOff_iff {analyzer : Named} {options : Options} {state : SessionState}
    (begun : (begin request).runFrom { files } = (.ok (.ok (analyzer, options)), state))
    (analyzes : analyzer ≠ .parse) (written : String) :
    BreaksOff files request written ↔ state.files.text? written = none := by
  obtain ⟨known, breaks⟩ := checked_of_begun files request begun [written]
  rw [← codeIn?_eq_none_iff state.files request options analyzes]
  cases code : codeIn? request analyzer options state.files written with
  | none =>
      obtain ⟨ending, broken, -⟩ := breaks ⟨written, List.mem_singleton_self _, code⟩
      simp [BreaksOff, broken, Except.isOk, Except.toBool]
  | some code =>
      have checks := known [_] (congrArg (fun code => [code]) code)
      simp [BreaksOff, checks, Except.isOk, Except.toBool]

/-- If none of the fixtures breaks off its check, the exit code is the worst of
those of the fixtures alone; else it is that of a failure.  It does not depend on
the order of the fixtures. -/
theorem checkExit_eq_worst {fixtures : List String} (nonempty : fixtures ≠ []) :
    ((∀ written ∈ fixtures, ¬ BreaksOff files request written) →
      (fixtures.map fun written => checkExit files request [written]).max? =
        some (checkExit files request fixtures)) ∧
    ((∃ written ∈ fixtures, BreaksOff files request written) →
      checkExit files request fixtures = ExitCode.failure.number) ∧
    ∀ others, fixtures.Perm others →
      checkExit files request others = checkExit files request fixtures := by
  obtain ⟨exit_of_known, exit_of_breaks⟩ := checkExit_eq_foldl files request nonempty
  refine ⟨fun known => ?_, exit_of_breaks, fun others perm => ?_⟩
  · rw [exit_of_known known]
    exact max?_eq_foldl (fun empty => nonempty (List.map_eq_nil_iff.mp empty))
  · have othersNonempty : others ≠ [] := by
      rintro rfl
      exact nonempty perm.eq_nil
    obtain ⟨other_of_known, other_of_breaks⟩ := checkExit_eq_foldl files request othersNonempty
    by_cases breaks : ∃ written ∈ fixtures, BreaksOff files request written
    · have othersBreak : ∃ written ∈ others, BreaksOff files request written := by
        obtain ⟨written, isFixture, breaksOff⟩ := breaks
        exact ⟨written, perm.mem_iff.mp isFixture, breaksOff⟩
      rw [exit_of_breaks breaks, other_of_breaks othersBreak]
    · have known : ∀ written ∈ fixtures, ¬ BreaksOff files request written :=
        fun written isFixture breaksOff => breaks ⟨written, isFixture, breaksOff⟩
      have othersKnown : ∀ written ∈ others, ¬ BreaksOff files request written :=
        fun written isFixture => known written (perm.mem_iff.mpr isFixture)
      rw [exit_of_known known, other_of_known othersKnown]
      exact ((perm.map _).foldl_eq 0).symm

end Request

/-- Files in the root directory, which is also the working directory. -/
def Files.ofTexts (texts : List (String × String)) : Files where
  workingDirectory := ⟨[]⟩
  contents := texts.foldl (fun table (name, text) =>
    table.insert ⟨[name]⟩ text.toUTF8.data.toList) .empty

/-- A mismatch and a marker set twice: neither breaks off the check, and the worse
code is that of both together, in either order. -/
theorem checkExit_eq_worst_mismatch_malformed :
    let files := Files.ofTexts
      [("bad.kt", "val ~a~a = 1\nval ~b~b = 2\nval c = `b`a\n"),
        ("mal.kt", "val ~a~a = 1\nval ~a~b = 2\n")]
    let request : CheckRequest :=
      { fixtures := [], analyzer := Command.defaultAnalyzer, options := none, failFast := false
        format := .gcc, output := none }
    checkExit files request ["bad.kt", "mal.kt"] = 3 ∧
      checkExit files request ["mal.kt", "bad.kt"] = 3 := by
  intro files request
  have nonempty : ["bad.kt", "mal.kt"] ≠ [] := List.cons_ne_nil _ _
  obtain ⟨worst, -, order⟩ := checkExit_eq_worst files request nonempty
  have alone : (["bad.kt", "mal.kt"].map fun written => checkExit files request [written]) =
      [1, 3] := by
    decide +kernel
  have known : ∀ written ∈ ["bad.kt", "mal.kt"], ¬ BreaksOff files request written := by
    unfold BreaksOff
    decide +kernel
  have exits := worst known
  rw [alone] at exits
  have exit : checkExit files request ["bad.kt", "mal.kt"] = 3 := (Option.some.inj exits).symm
  exact ⟨exit, (order _ (List.Perm.swap _ _ _)).trans exit⟩

/-- A fixture that is not there ends the run with the code of a failure, although
the fixture before it was malformed. -/
theorem max?_ne_exit_malformed_missing :
    let files := Files.ofTexts [("mal.kt", "val ~a~a = 1\nval ~a~b = 2\n")]
    (["mal.kt", "nope.kt"].map fun written => (run files ["check", written]).exit).max? ≠
      some (run files ["check", "mal.kt", "nope.kt"]).exit := by
  decide +kernel

end Gloss.CommandLine
