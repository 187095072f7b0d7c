import Gloss.Proofs.Audit.Resolved
import Gloss.Proofs.Recursion.Files
import Mathlib.Data.List.Chain

/-!
# Types that depend on themselves

The type of a member may be left open to be decided by its body.  On each cycle of such
members, each with a reference to the next one in its body, one of them is reported to
depend on itself, and whoever is reported is on a cycle of members that at least mention
each other by name.
-/

namespace Gloss

open Gloss.Tree ResolutionState

namespace Tree.File

/-- The members whose types are left open, with the bodies that decide them. -/
def openBodies (file : File) : List (NodeRef × Expr) :=
  file.members.filterMap fun member => member.openBody?.map fun body => (member.node.ref, body)

/-- The body that decides the type of the one member goes by the name of the other one, whose
type is left open as well. -/
def Mentions (file : File) (node other : NodeRef) : Prop :=
  ∃ opened ∈ file.openBodies, opened.1 = node ∧
    ∃ used ∈ file.members, used.node.ref = other ∧ used.openBody?.isSome ∧
      opened.2.node.Mentions used.name

instance (node : Node) (word : String) : Decidable (node.Mentions word) := by
  unfold Node.Mentions
  infer_instance

instance (file : File) (node other : NodeRef) : Decidable (file.Mentions node other) := by
  unfold Mentions
  infer_instance

variable {file : File} {node : NodeRef} {body : Expr}

theorem mem_openBodies_iff :
    (node, body) ∈ file.openBodies ↔
      ∃ site ∈ TopLevel.sitesOf file.declarations, site.member.node.ref = node ∧
        site.member.openBody? = some body := by
  rw [openBodies, members, ← TopLevel.map_member_sitesOf, List.mem_filterMap]
  constructor
  · rintro ⟨member, isMember, isOpened⟩
    obtain ⟨site, isSite, rfl⟩ := List.mem_map.mp isMember
    obtain ⟨_, isOpen, same⟩ := Option.map_eq_some_iff.mp isOpened
    cases same
    exact ⟨site, isSite, rfl, isOpen⟩
  · rintro ⟨site, isSite, rfl, isOpen⟩
    exact ⟨_, List.mem_map_of_mem isSite, by rw [isOpen]; rfl⟩

/-- Both members of a mention have bodies that decide their types. -/
theorem Mentions.mem_openBodies {other : NodeRef} (mentions : file.Mentions node other) :
    node ∈ file.openBodies.map Prod.fst ∧ other ∈ file.openBodies.map Prod.fst := by
  obtain ⟨opened, isOpened, rfl, used, isUsed, rfl, usedOpen, -⟩ := mentions
  obtain ⟨body, isOpen⟩ := Option.isSome_iff_exists.mp usedOpen
  refine ⟨List.mem_map_of_mem isOpened, List.mem_map.mpr ⟨(used.node.ref, body), ?_, rfl⟩⟩
  exact List.mem_filterMap.mpr ⟨used, isUsed, by rw [isOpen]; rfl⟩

end Tree.File

/-- What a function returns, and the type of a variable. -/
def Descriptor.resultType? (inferred : InferredTypes) : Descriptor → Option NominalType
  | .function declared => declared.returnType? inferred
  | .variable declared => declared.type? inferred
  | _ => none

theorem Descriptor.resultType?_of_leavesOpen {inferred : InferredTypes} {descriptor : Descriptor}
    (leavesOpen : descriptor.LeavesOpen) :
    descriptor.resultType? inferred = descriptor.declaration.bind inferred.get? := by
  cases descriptor with
  | function declared =>
      simp_all [resultType?, FunctionDescriptor.returnType?, LeavesOpen, declaration]
  | «variable» holder =>
      cases holder with
      | property declared =>
          simp_all [resultType?, VariableDescriptor.type?, LeavesOpen, declaration,
            VariableDescriptor.declaration]
      | _ => cases leavesOpen
  | _ => cases leavesOpen

namespace Resolution

/-- The type that a declaration has when all is resolved. -/
def resultType? (resolution : Resolution) (declaration : NodeRef) : Option NominalType :=
  (resolution.descriptor? declaration).bind
    (Descriptor.resultType? resolution.state.inferred)

/-- A reference in the expression means the declaration. -/
def Refers (resolution : Resolution) (value : Expr) (declaration : NodeRef) : Prop :=
  ∃ below ∈ value.node.subtree, below.kind.isReference = true ∧
    ∃ target ∈ resolution.target? below.ref,
      resolution.descriptor? declaration = some target.original

/-- In the body that decides the type of the one declaration, a reference means the other one,
whose type is left open as well. -/
def DependsOn (resolution : Resolution) (node other : NodeRef) : Prop :=
  other ∈ resolution.file.openBodies.map Prod.fst ∧
    ∃ opened ∈ resolution.file.openBodies, opened.1 = node ∧ resolution.Refers opened.2 other

instance (resolution : Resolution) (value : Expr) (declaration : NodeRef) :
    Decidable (resolution.Refers value declaration) := by
  unfold Refers
  infer_instance

instance (resolution : Resolution) (node other : NodeRef) :
    Decidable (resolution.DependsOn node other) := by
  unfold DependsOn
  infer_instance

section Read

variable {name : String} {text : List Char} {resolution : Resolution} {node other : NodeRef}
  {body : Expr}

theorem exists_unfolds_of_read (readable : read name text = .ok resolution) :
    TopLevel.FillsOnce resolution.file.declarations ∧
      ∃ base total, Unfolds resolution.file.declarations base resolution.state total := by
  obtain ⟨file, parsed, rfl⟩ := eq_ofFile_of_read readable
  have once := (Grammar.wellPlaced_of_read parsed).fillsOnce
  exact ⟨once, exists_unfolds file once⟩

section Unfolds

variable {base : ResolutionState} {total : List Remark} {site : Site}
  (unfolds : Unfolds resolution.file.declarations base resolution.state total)

include unfolds

theorem mem_reportedAt_iff :
    node ∈ resolution.reportedAt ["recursive-type"] ↔ ∃ name, recursion name node ∈ total := by
  have written : resolution.diagnostics = total.filterMap Remark.problem? :=
    (congrArg Journal.diagnostics unfolds.journal).trans (Journal.diagnostics_remarkAll _ _)
  rw [reportedAt, written]
  constructor
  · intro isReported
    obtain ⟨⟨problem, node⟩, isFound, rfl⟩ := List.mem_map.mp isReported
    obtain ⟨isWritten, isLabelled⟩ := List.mem_filter.mp isFound
    obtain ⟨remark, inTotal, isProblem⟩ := List.mem_filterMap.mp isWritten
    have isRecursion := problem.isRecursion_iff.mpr
      (List.mem_singleton.mp (of_decide_eq_true isLabelled))
    cases problem with
    | recursiveType name =>
        cases remark with
        | problem found => cases isProblem; exact ⟨name, inTotal⟩
        | _ => cases isProblem
    | _ => cases isRecursion
  · rintro ⟨name, inTotal⟩
    have isWritten : _ ∈ total.filterMap Remark.problem? :=
      List.mem_filterMap.mpr ⟨_, inTotal, rfl⟩
    exact List.mem_map_of_mem (List.mem_filter.mpr ⟨isWritten, by simp [Problem.label]⟩)

theorem type?_eq_some_iff (once : TopLevel.FillsOnce resolution.file.declarations)
    {type : NominalType} : resolution.type? node = some type ↔ .typed node type ∈ total := by
  have types := congrArg Journal.types unfolds.journal
  change resolution.state.types = _ at types
  rw [type?, types, Journal.get?_types_iff (unfolds.nodup_total once .type)]

theorem descriptor?_site (once : TopLevel.FillsOnce resolution.file.declarations)
    (isSite : site ∈ TopLevel.sitesOf resolution.file.declarations) :
    resolution.descriptor? site.member.node.ref = some site.introduction.symbol.descriptor := by
  have declarations := congrArg Journal.declarations unfolds.journal
  change resolution.state.declarations = _ at declarations
  obtain ⟨_, own, remarks, -, -, perm⟩ := unfolds.course
  rw [descriptor?, declarations,
    Journal.get?_declarations_iff (unfolds.nodup_total once .declaration)]
  exact perm.mem_iff.mpr (List.mem_append_left _ (TopLevel.declared_mem_remarks isSite))

end Unfolds

/-- The open type of a member is known in the end: it is the type of its body. -/
theorem exists_resultType? (readable : read name text = .ok resolution)
    (isOpen : (node, body) ∈ resolution.file.openBodies) :
    ∃ type, resolution.state.inferred.get? node = some type ∧
      resolution.resultType? node = some type ∧ resolution.type? body.node.ref = some type := by
  obtain ⟨once, base, total, unfolds⟩ := exists_unfolds_of_read readable
  obtain ⟨site, isSite, rfl, isBody⟩ := File.mem_openBodies_iff.mp isOpen
  have leavesOpen : site.introduction.symbol.descriptor.LeavesOpen :=
    site.member.leavesOpen_introduction (by rw [isBody]; rfl)
  have declared : site.introduction.symbol.descriptor.declaration = some site.member.node.ref :=
    site.member.declaration_introduction
  have found := descriptor?_site unfolds once isSite
  obtain ⟨ledger, -, closes, same⟩ := exists_closes_of_read readable
  have isKnown := closes.isSome_inferred
    (show ledger.state.declarations.get? site.member.node.ref = _ by rw [same]; exact found)
    leavesOpen
  rw [declared, Option.bind_some, same] at isKnown
  obtain ⟨type, known⟩ := Option.isSome_iff_exists.mp isKnown
  refine ⟨type, known, ?_, ?_⟩
  · rw [resultType?, found, Option.bind_some, Descriptor.resultType?_of_leavesOpen leavesOpen,
      declared, Option.bind_some, known]
  · obtain ⟨own, runs, included⟩ := unfolds.exists_runs isSite isBody known
    rw [type?_eq_some_iff unfolds once]
    exact included (Surroundings.records_infer body own type runs)

/-- A member that depends on another one is reported, or its type became known later. -/
theorem reported_or_idxOf_lt (readable : read name text = .ok resolution)
    (depends : resolution.DependsOn node other) :
    node ∈ resolution.reportedAt ["recursive-type"] ∨
      resolution.state.inferred.keys.idxOf other < resolution.state.inferred.keys.idxOf node := by
  obtain ⟨isOther, ⟨_, body⟩, isOpen, rfl, below, isBelow, isReference, target, hasTarget, means⟩ :=
    depends
  obtain ⟨once, base, total, unfolds⟩ := exists_unfolds_of_read readable
  obtain ⟨type, known, -⟩ := exists_resultType? readable isOpen
  obtain ⟨⟨_, otherBody⟩, isOtherOpen, rfl⟩ := List.mem_map.mp isOther
  obtain ⟨site, isSite, rfl, isBody⟩ := File.mem_openBodies_iff.mp isOpen
  obtain ⟨otherSite, isOtherSite, rfl, isOtherBody⟩ := File.mem_openBodies_iff.mp isOtherOpen
  have targets := congrArg (fun journal : Journal => journal.bindings.targets) unfolds.journal
  change resolution.state.bindings.targets = _ at targets
  have isTarget : resolution.state.bindings.targets.get? below.ref = some target := hasTarget
  rw [targets, Journal.get?_targets_iff (unfolds.nodup_total once .meaning)] at isTarget
  rw [descriptor?_site unfolds once isOtherSite, Option.some.injEq] at means
  rw [mem_reportedAt_iff unfolds]
  exact unfolds.reported_or_idxOf_lt once isSite isBody (Table.mem_keys_of_get? known) isOtherSite
    (by rw [isOtherBody]; rfl) isBelow isReference isTarget means.symm

/-- What the inference of an open type asks for is mentioned in the body. -/
theorem mentions_of_asks {base : ResolutionState} {total : List Remark}
    (unfolds : Unfolds resolution.file.declarations base resolution.state total)
    (asks : base.Asks node other) : resolution.file.Mentions node other := by
  obtain ⟨site, isSite, isNode, body, isOpen, used, isUsed, isOther, otherOpen, mentions⟩ :=
    unfolds.laid.exists_site_of_asks asks
  have isMember : used.member ∈ resolution.file.members := by
    rw [File.members, ← TopLevel.map_member_sitesOf]
    exact List.mem_map_of_mem isUsed
  exact ⟨(node, body), File.mem_openBodies_iff.mpr ⟨site, isSite, isNode, isOpen⟩, rfl,
    used.member, isMember, isOther, otherOpen, mentions⟩

/-- Only a member whose type is left open is reported. -/
theorem exists_body_of_reported (readable : read name text = .ok resolution)
    (isReported : node ∈ resolution.reportedAt ["recursive-type"]) :
    ∃ body, (node, body) ∈ resolution.file.openBodies := by
  obtain ⟨once, base, total, unfolds⟩ := exists_unfolds_of_read readable
  obtain ⟨name, isWritten⟩ := (mem_reportedAt_iff unfolds).mp isReported
  obtain ⟨other, asks, -⟩ := Relation.TransGen.head'_iff.mp (unfolds.transGen_asks isWritten)
  obtain ⟨⟨_, body⟩, isOpen, rfl, -⟩ := mentions_of_asks unfolds asks
  exact ⟨body, isOpen⟩

/-! ### Who is reported -/

/-- On every cycle of members with open types, each of which has a reference to the next one
in its body, one of them is reported to depend on itself. -/
theorem exists_reported_of_cycle (readable : read name text = .ok resolution) {first : NodeRef}
    {rest : List NodeRef}
    (cycle : List.IsChain resolution.DependsOn (first :: (rest ++ [first]))) :
    ∃ node ∈ first :: rest, node ∈ resolution.reportedAt ["recursive-type"] := by
  by_contra noneReported
  push Not at noneReported
  -- Along the cycle the types became known earlier and earlier.
  let earlier (node other : NodeRef) : Prop :=
    resolution.state.inferred.keys.idxOf other < resolution.state.inferred.keys.idxOf node
  have : IsTrans NodeRef earlier := ⟨fun _ _ _ first second => second.trans first⟩
  have descends : List.IsChain earlier (first :: (rest ++ [first])) := by
    refine cycle.imp_of_mem_imp fun node other isNode _ depends => ?_
    have onCycle : node ∈ first :: rest := by
      simpa [or_comm, or_assoc] using isNode
    exact (reported_or_idxOf_lt readable depends).resolve_left (noneReported node onCycle)
  have ordered := List.isChain_iff_pairwise.mp descends
  exact lt_irrefl _ (List.rel_of_pairwise_cons ordered (by simp : first ∈ rest ++ [first]))

/-- Of two functions that return what the other one returns, one is reported. -/
theorem exists_reported_of_cycle_mutual_calls :
    ∃ resolution first second,
      read "sample" "fun a() = b()\nfun b() = a()".toList = .ok resolution ∧
        List.IsChain resolution.DependsOn (first :: ([second] ++ [first])) ∧
          ∃ node ∈ [first, second], node ∈ resolution.reportedAt ["recursive-type"] := by
  have checked :
      ((read "sample" "fun a() = b()\nfun b() = a()".toList).toOption.any fun resolution =>
        decide (resolution.DependsOn ⟨.function, ⟨0, 13⟩⟩ ⟨.function, ⟨14, 27⟩⟩ ∧
          resolution.DependsOn ⟨.function, ⟨14, 27⟩⟩ ⟨.function, ⟨0, 13⟩⟩)) = true := by
    decide +kernel
  obtain ⟨resolution, readable, depends, dependsBack⟩ := exists_of_read checked
  have cycle : List.IsChain resolution.DependsOn
      (⟨.function, ⟨0, 13⟩⟩ :: ([⟨.function, ⟨14, 27⟩⟩] ++ [⟨.function, ⟨0, 13⟩⟩])) :=
    .cons_cons depends (.cons_cons dependsBack (.singleton _))
  exact ⟨resolution, _, _, readable, cycle, exists_reported_of_cycle readable cycle⟩

/-- What is reported to depend on itself is on a cycle of members with open types, each of
which mentions the next one by its name.  So it does depend on itself if these names mean what
goes by them: a candidate that is turned down in the end is asked for its type as well. -/
theorem transGen_dependsOn_of_reported (readable : read name text = .ok resolution)
    (isReported : node ∈ resolution.reportedAt ["recursive-type"]) :
    Relation.TransGen resolution.file.Mentions node node ∧
      ((∀ first second, Relation.ReflTransGen resolution.file.Mentions node first →
        resolution.file.Mentions first second →
          Relation.ReflTransGen resolution.file.Mentions second node →
            resolution.DependsOn first second) →
        Relation.TransGen resolution.DependsOn node node) := by
  obtain ⟨once, base, total, unfolds⟩ := exists_unfolds_of_read readable
  obtain ⟨name, isWritten⟩ := (mem_reportedAt_iff unfolds).mp isReported
  have onCycle := Relation.TransGen.mono (fun _ _ => mentions_of_asks unfolds) _ _
    (unfolds.transGen_asks isWritten)
  exact ⟨onCycle, transGen_of_onCycle onCycle⟩

/-- Two functions that return what the other one returns, by names that are not overloaded. -/
theorem transGen_dependsOn_of_reported_mutual_calls :
    ∃ resolution node, read "sample" "fun a() = b()\nfun b() = a()".toList = .ok resolution ∧
      node ∈ resolution.reportedAt ["recursive-type"] ∧
        Relation.TransGen resolution.file.Mentions node node ∧
          Relation.TransGen resolution.DependsOn node node := by
  have checked :
      ((read "sample" "fun a() = b()\nfun b() = a()".toList).toOption.any fun resolution =>
        decide (⟨.function, ⟨0, 13⟩⟩ ∈ resolution.reportedAt ["recursive-type"] ∧
          ∀ first ∈ resolution.file.openBodies.map Prod.fst,
            ∀ second ∈ resolution.file.openBodies.map Prod.fst,
              resolution.file.Mentions first second →
                resolution.DependsOn first second)) = true := by
    decide +kernel
  obtain ⟨resolution, readable, isReported, meant⟩ := exists_of_read checked
  obtain ⟨onCycle, depends⟩ := transGen_dependsOn_of_reported readable isReported
  refine ⟨resolution, _, readable, isReported, onCycle, depends fun first second _ mentions _ => ?_⟩
  obtain ⟨isFirst, isSecond⟩ := mentions.mem_openBodies
  exact meant first isFirst second isSecond mentions

/-- A name does not say which overload a call means: such a function is reported although no
reference in the file means it. -/
theorem not_transGen_dependsOn_of_reported :
    ∃ resolution node,
      read "sample" "fun f(a: Int) = f(\"x\")\nfun f(a: String) = 1".toList = .ok resolution ∧
        node ∈ resolution.reportedAt ["recursive-type"] ∧
          ¬ Relation.TransGen resolution.DependsOn node node := by
  have checked :
      ((read "sample" "fun f(a: Int) = f(\"x\")\nfun f(a: String) = 1".toList).toOption.any
        fun resolution =>
          decide (⟨.function, ⟨0, 22⟩⟩ ∈ resolution.reportedAt ["recursive-type"] ∧
            ∀ opened ∈ resolution.file.openBodies,
              ¬ resolution.Refers opened.2 ⟨.function, ⟨0, 22⟩⟩)) = true := by
    decide +kernel
  obtain ⟨resolution, readable, isReported, notMeant⟩ := exists_of_read checked
  refine ⟨resolution, _, readable, isReported, fun onCycle => ?_⟩
  obtain ⟨last, -, -, opened, isOpened, -, refers⟩ := Relation.TransGen.tail'_iff.mp onCycle
  exact notMeant opened isOpened refers

/-! ### What becomes of the type -/

/-- Whoever is reported has the type of its body in the end.  So it is the error type just when
the body comes to that. -/
theorem resultType?_eq_type?_of_reported (readable : read name text = .ok resolution)
    (isReported : node ∈ resolution.reportedAt ["recursive-type"]) :
    ∃ body, (node, body) ∈ resolution.file.openBodies ∧ (resolution.resultType? node).isSome ∧
      resolution.resultType? node = resolution.type? body.node.ref := by
  obtain ⟨body, isOpen⟩ := exists_body_of_reported readable isReported
  obtain ⟨type, -, result, typed⟩ := exists_resultType? readable isOpen
  exact ⟨body, isOpen, by rw [result]; rfl, result.trans typed.symm⟩

/-- A property that is compared with a number in its own initializer is reported. -/
theorem resultType?_eq_type?_of_reported_comparison :
    ∃ resolution node, read "sample" "val a = a == 1\nval b = a".toList = .ok resolution ∧
      node ∈ resolution.reportedAt ["recursive-type"] ∧
        ∃ body, (node, body) ∈ resolution.file.openBodies ∧ (resolution.resultType? node).isSome ∧
          resolution.resultType? node = resolution.type? body.node.ref := by
  have checked :
      ((read "sample" "val a = a == 1\nval b = a".toList).toOption.any fun resolution =>
        decide (⟨.property, ⟨0, 14⟩⟩ ∈ resolution.reportedAt ["recursive-type"])) = true := by
    decide +kernel
  obtain ⟨resolution, readable, isReported⟩ := exists_of_read checked
  exact ⟨resolution, _, readable, isReported, resultType?_eq_type?_of_reported readable isReported⟩

/-- The type of a comparison is no error, whatever is compared.  So references to such a
property have different types, inside of the initializer and outside of it. -/
theorem resultType?_ne_error_of_reported :
    ∃ resolution node, read "sample" "val a = a == 1\nval b = a".toList = .ok resolution ∧
      node ∈ resolution.reportedAt ["recursive-type"] ∧
        resolution.resultType? node ≠ some .error ∧
          ∃ first second, resolution.target? first = resolution.descriptor? node ∧
            resolution.target? second = resolution.descriptor? node ∧
              resolution.type? first = some .error ∧
                resolution.type? second = some Library.boolean := by
  have checked :
      ((read "sample" "val a = a == 1\nval b = a".toList).toOption.any fun resolution =>
        decide (⟨.property, ⟨0, 14⟩⟩ ∈ resolution.reportedAt ["recursive-type"] ∧
          resolution.resultType? ⟨.property, ⟨0, 14⟩⟩ ≠ some .error ∧
            resolution.target? ⟨.name, ⟨8, 9⟩⟩ = resolution.descriptor? ⟨.property, ⟨0, 14⟩⟩ ∧
              resolution.target? ⟨.name, ⟨23, 24⟩⟩ = resolution.descriptor? ⟨.property, ⟨0, 14⟩⟩ ∧
                resolution.type? ⟨.name, ⟨8, 9⟩⟩ = some .error ∧
                  resolution.type? ⟨.name, ⟨23, 24⟩⟩ = some Library.boolean)) = true := by
    decide +kernel
  obtain ⟨resolution, readable, isReported, result, first, second, types⟩ := exists_of_read checked
  exact ⟨resolution, _, readable, isReported, result, _, _, first, second, types⟩

end Read

end Resolution

end Gloss
