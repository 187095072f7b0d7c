import Gloss.Proofs.Confinement.Checks
import Gloss.Proofs.Order
import Gloss.Proofs.Scoping.Members

/-!
# Type parameters do not escape

In a file where nothing is reported, the type of an expression mentions no type parameters but
those of the class and the function around it, and those that some reference in the file leaves
undecided: what a generic function that is not called takes and gives is not known, and neither
is what the arguments of a call say nothing about.
-/

namespace Gloss

open Gloss.Tree ResolutionState

namespace Node

/-- The type parameters that a class or a function declares. -/
def typeParameters : Node → List TypeParameter
  | .class declaration => declaration.typeParameters
  | .function declared => declared.typeParameters
  | _ => []

/-- A node declares a type parameter with the constructor. -/
def Declares (node : Node) (constructor : TypeConstructor) : Prop :=
  ∃ parameter ∈ node.typeParameters, constructor.kind = .typeParameter ∧
    constructor.origin = .declared (Node.typeParameter parameter).ref

theorem declares_describe {node : Node} (container : Option String) {parameter : TypeParameter}
    (isParameter : parameter ∈ node.typeParameters) :
    node.Declares (parameter.describe container).constructor :=
  ⟨parameter, isParameter, rfl, rfl⟩

end Node

/-! ### Places in a file -/

namespace Site

variable {contents : List TopLevel} {site : Site}

theorem declares_of_mem_typeParameters (site : Site) :
    ∀ parameter ∈ site.typeParameters, site.member.node.Declares parameter.constructor := by
  obtain ⟨member, owner, classifiers, levels⟩ := site
  cases member with
  | property declared => exact List.forall_mem_nil _
  | function declared =>
      exact List.forall_mem_map.mpr fun _ isParameter => Node.declares_describe none isParameter

/-- A member is in a declaration of its file, which is the class around it if there is one. -/
theorem exists_declaration (isSite : site ∈ TopLevel.sitesOf contents) :
    ∃ declared ∈ contents, site.member.node ∈ declared.node.subtree ∧
      ∀ constructor ∈ site.outerParameters, declared.node.Declares constructor := by
  obtain ⟨declared, isDeclared, isSite⟩ := List.mem_flatMap.mp isSite
  refine ⟨declared, isDeclared, ?_⟩
  cases declared with
  | member declaration =>
      cases List.mem_singleton.mp isSite
      exact ⟨declaration.node.mem_subtree_self, List.forall_mem_nil _⟩
  | «class» declaration =>
      obtain ⟨member, isMember, rfl⟩ := List.mem_map.mp isSite
      refine ⟨Node.mem_subtree_of_child (Class.mem_children isMember) member.node.mem_subtree_self,
        List.forall_mem_map.mpr (List.forall_mem_map.mpr fun parameter isParameter => ?_)⟩
      exact Node.declares_describe _ isParameter

end Site

namespace Tree.File

/-- A class or a function around a node declares a type parameter with the constructor. -/
def DeclaresAround (file : File) (node : NodeRef) (constructor : TypeConstructor) : Prop :=
  ∃ outer ∈ file.nodes, (∃ below ∈ outer.subtree, below.ref = node) ∧ outer.Declares constructor

instance (file : File) (node : NodeRef) (constructor : TypeConstructor) :
    Decidable (file.DeclaresAround node constructor) := by
  unfold DeclaresAround Node.Declares
  infer_instance

variable {file : File} {site : Site}

theorem mem_nodes_of_mem_subtree {node below : Node} (inFile : node ∈ file.nodes)
    (isBelow : below ∈ node.subtree) : below ∈ file.nodes := by
  obtain ⟨child, isChild, isInside⟩ := List.mem_flatMap.mp inFile
  exact List.mem_flatMap.mpr ⟨child, isChild, child.subtree_subset isInside isBelow⟩

theorem node_mem_nodes {declared : TopLevel} (isDeclared : declared ∈ file.declarations) :
    declared.node ∈ file.nodes :=
  List.mem_flatMap.mpr ⟨declared.node, mem_children isDeclared, declared.node.mem_subtree_self⟩

theorem member_mem_nodes (isSite : site ∈ TopLevel.sitesOf file.declarations) :
    site.member.node ∈ file.nodes := by
  obtain ⟨declared, isDeclared, isInside, -⟩ := Site.exists_declaration isSite
  exact mem_nodes_of_mem_subtree (node_mem_nodes isDeclared) isInside

/-- What is in scope in a member is declared around everything in it. -/
theorem declaresAround_of_mem_parameters (isSite : site ∈ TopLevel.sitesOf file.declarations)
    {constructor : TypeConstructor} (inScope : constructor ∈ site.parameters) {below : Node}
    (isBelow : below ∈ site.member.node.subtree) : file.DeclaresAround below.ref constructor := by
  rcases List.mem_append.mp inScope with isOwn | isOuter
  · obtain ⟨parameter, isParameter, rfl⟩ := List.mem_map.mp isOwn
    exact ⟨site.member.node, member_mem_nodes isSite, ⟨below, isBelow, rfl⟩,
      site.declares_of_mem_typeParameters parameter isParameter⟩
  · obtain ⟨declared, isDeclared, isInside, declares⟩ := Site.exists_declaration isSite
    exact ⟨declared.node, node_mem_nodes isDeclared,
      ⟨below, declared.node.subtree_subset isInside isBelow, rfl⟩, declares constructor isOuter⟩

end Tree.File

/-! ### What a file says -/

namespace Resolution

/-- Some reference in the file leaves undecided what a type parameter stands for. -/
inductive LeavesUndecided (resolution : Resolution) : TypeConstructor → Prop
  /-- A generic function is not called. -/
  | callableRef {span : Span} {target : SimpleName} {function : FunctionDescriptor}
      {parameter : TypeParameterDescriptor}
      (inFile : (Expr.callableRef span target).node ∈ resolution.file.nodes)
      (means : resolution.target? target.node.ref = some (.function function))
      (isParameter : parameter ∈ function.typeParameters) :
      LeavesUndecided resolution parameter.constructor
  /-- The arguments of a call of a generic function say nothing about it. -/
  | functionCall {reference : NodeRef} {specialized : SpecializedFunction}
      {parameter : TypeParameterDescriptor}
      (means : resolution.target? reference = some (.specialized specialized))
      (isParameter : parameter ∈ specialized.generic.typeParameters)
      (undecided : specialized.substitution.get? parameter.constructor = none) :
      LeavesUndecided resolution parameter.constructor
  /-- The arguments of a constructor call say nothing about it. -/
  | constructorCall {span : Span} {name : SimpleName} {arguments : List Expr}
      {types : List NominalType} {owner : ClassDescriptor} {parameter : TypeParameterDescriptor}
      (inFile : (Expr.call span (.name name) arguments).node ∈ resolution.file.nodes)
      (means : resolution.target? name.node.ref = some (.class owner))
      (areTyped : List.Forall₂ (fun argument type => resolution.type? argument.node.ref = some type)
        arguments types)
      (isParameter : parameter ∈ owner.typeParameters)
      (undecided : ((resolution.state.constructorSignature owner).inferred types).get?
        parameter.constructor = none) :
      LeavesUndecided resolution parameter.constructor
  /-- A member of function type is called at once, through the type that it has in its class. -/
  | memberCall {span memberSpan : Span} {receiver : Expr} {selector : SimpleName}
      {arguments : List Expr} {property : PropertyDescriptor} {type : NominalType}
      {constructor : TypeConstructor}
      (inFile : (Expr.call span (.member memberSpan receiver selector) arguments).node ∈
        resolution.file.nodes)
      (means : resolution.target? selector.node.ref = some (.invoke (.property property) type))
      (occurs : constructor ∈ type.constructors) :
      LeavesUndecided resolution constructor

/-- How a file is resolved where nothing is reported: the types that are settled, and all that is
written down. -/
structure Finishes (resolution : Resolution) (base : ResolutionState)
    (settlements : List Settlement) (total : List Remark) : Prop where
  laid : base.Laid resolution.file.declarations
  finished : Finished resolution.file.declarations base resolution.state settlements
  perm : total.Perm (TopLevel.remarks resolution.file.declarations ++
    ((TopLevel.sitesOf resolution.file.declarations).flatMap fun site =>
        (base.siteScript site).remarks resolution.state.inferred) ++
      settlements.flatMap Settlement.remarks)
  classes : resolution.state.classes = base.classes
  noProblem : ∀ found, .problem found ∉ total
  target : ∀ {reference target}, .meaning reference (.target target) ∈ total ↔
    resolution.target? reference = some target
  typed : ∀ {node type}, .typed node type ∈ total ↔ resolution.type? node = some type

variable {name : String} {text : List Char} {resolution : Resolution}

theorem exists_finishes_of_read (readable : read name text = .ok resolution)
    (clean : resolution.diagnostics = []) :
    ∃ base settlements total, resolution.Finishes base settlements total := by
  obtain ⟨file, parsed, rfl⟩ := eq_ofFile_of_read readable
  have once := (Grammar.wellPlaced_of_read parsed).fillsOnce
  obtain ⟨base, laid, played, continues⟩ := exists_played file once
  have noDiagnostics : ((Resolver.resolveFile file).run .initial).2.diagnostics = [] := clean
  have notRecursive : ¬ ((Resolver.resolveFile file).run .initial).2.IsRecursive := by
    rintro ⟨found, isReported, -⟩
    rw [noDiagnostics] at isReported
    cases isReported
  have pairwise := laid.pairwise_level played fun found isReported => by
    rw [noDiagnostics] at isReported
    cases isReported
  obtain ⟨settlements, finished⟩ := laid.exists_finished played notRecursive
  obtain ⟨total, journal, perm⟩ := finished.written
  have reordered : Reordered file.declarations file.declarations base base :=
    ⟨.refl _, pairwise, laid, laid⟩
  have distinct := reordered.nodup_written finished perm once
  have diagnostics := congrArg Journal.diagnostics journal
  have targets := congrArg (fun journal : Journal => journal.bindings.targets) journal
  have types := congrArg Journal.types journal
  rw [Journal.diagnostics_remarkAll] at diagnostics
  refine ⟨base, settlements, total, laid, finished, perm, continues.classes, ?_, ?_, ?_⟩
  · intro found isWritten
    have isReported : found ∈ total.filterMap Remark.problem? :=
      List.mem_filterMap.mpr ⟨_, isWritten, rfl⟩
    have nothing : total.filterMap Remark.problem? = [] := diagnostics.symm.trans noDiagnostics
    rw [nothing] at isReported
    cases isReported
  · intro reference target
    rw [← Journal.get?_targets_iff (distinct .meaning), ← targets]
    rfl
  · intro node type
    rw [← Journal.get?_types_iff (distinct .type), ← types]
    rfl

namespace Finishes

variable {base : ResolutionState} {settlements : List Settlement} {total : List Remark}
  (finishes : resolution.Finishes base settlements total)

include finishes in
theorem constructorSignature_eq (owner : ClassDescriptor) :
    base.constructorSignature owner = resolution.state.constructorSignature owner := by
  have same (constructor : TypeConstructor) :
      base.class? constructor = resolution.state.class? constructor := by
    rw [class?, class?, finishes.classes]
  rw [constructorSignature, constructorSignature, same]

/-- What is written down about the file; outside of members no type parameters are in scope. -/
def account : Account where
  base
  parameters := []
  leftOpen := resolution.LeavesUndecided
  written := (· ∈ total)
  inside := (· ∈ resolution.file.nodes)
  noProblem := finishes.noProblem
  child _ inFile below isChild :=
    File.mem_nodes_of_mem_subtree inFile (Node.mem_subtree_of_child isChild below.mem_subtree_self)
  callableRef _ _ _ inFile isWritten _ isParameter :=
    .callableRef inFile (finishes.target.mp isWritten) isParameter
  specialized _ _ isWritten _ isParameter undecided :=
    .functionCall (finishes.target.mp isWritten) isParameter undecided
  constructed _ _ _ _ owner inFile isWritten areTyped _ isParameter undecided :=
    .constructorCall inFile (finishes.target.mp isWritten)
      (areTyped.imp fun _ _ isTyped => finishes.typed.mp isTyped) isParameter
      (finishes.constructorSignature_eq owner ▸ undecided)
  invoked _ _ _ _ _ _ _ inFile isWritten _ occurs :=
    .memberCall inFile (finishes.target.mp isWritten) occurs

end Finishes

/-- Type parameters do not escape: where a file is without problems, the type of an expression
mentions nothing but classes, the error type, the type parameters of the classes and functions
around the expression and type parameters that some reference in the file leaves undecided. -/
theorem declaresAround_or_leavesUndecided (readable : read name text = .ok resolution)
    (clean : resolution.diagnostics = []) {node : NodeRef} (isExpression : node.kind.isExpression)
    {type : NominalType} (isTyped : resolution.type? node = some type)
    {constructor : TypeConstructor} (occurs : constructor ∈ type.constructors) :
    constructor.kind = .class ∨ constructor = .error ∨
      resolution.file.DeclaresAround node constructor ∨ resolution.LeavesUndecided constructor := by
  obtain ⟨base, settlements, total, finishes⟩ := exists_finishes_of_read readable clean
  have confines : finishes.account.Confines resolution.file.declarations node type :=
    @Account.confines_of_finished finishes.account _ _ _ finishes.laid finishes.finished
      (fun _ isSite => File.member_mem_nodes isSite) _ finishes.perm
      (fun _ isWritten => isWritten) _ _ (finishes.typed.mpr isTyped)
  obtain ⟨site, isSite, holds, here, isInside, rfl⟩ := confines isExpression
  rcases holds.allows_of_mem constructor occurs with isClass | isError | inScope | isLeft
  · exact .inl isClass
  · exact .inr (.inl isError)
  · exact .inr (.inr (.inl (File.declaresAround_of_mem_parameters isSite inScope isInside)))
  · exact .inr (.inr (.inr isLeft))

/-- What a box of some type holds is of that type: its own type parameter is not seen. -/
theorem declaresAround_or_leavesUndecided_of_member :
    ∃ resolution,
      read "sample" "class Box<T>(val x: T)\nfun <U> f(b: Box<U>) = b.x".toList = .ok resolution ∧
        resolution.diagnostics = [] ∧
          ∃ type ∈ resolution.type? ⟨.member, ⟨46, 49⟩⟩, ∃ constructor ∈ type.constructors,
            constructor.name = "U" ∧ constructor.kind = .typeParameter ∧
              (resolution.file.DeclaresAround ⟨.member, ⟨46, 49⟩⟩ constructor ∨
                resolution.LeavesUndecided constructor) := by
  have computed : ∃ resolution,
      read "sample" "class Box<T>(val x: T)\nfun <U> f(b: Box<U>) = b.x".toList = .ok resolution ∧
        resolution.diagnostics = [] ∧
          ∃ type ∈ resolution.type? ⟨.member, ⟨46, 49⟩⟩, ∃ constructor ∈ type.constructors,
            constructor.name = "U" ∧ constructor.kind = .typeParameter := by
    apply exists_of_read
    decide +kernel
  obtain ⟨resolution, readable, clean, type, isTyped, constructor, occurs, isNamed, isParameter⟩ :=
    computed
  refine ⟨resolution, readable, clean, type, isTyped, constructor, occurs, isNamed, isParameter, ?_⟩
  rcases declaresAround_or_leavesUndecided readable clean rfl isTyped occurs with
    isClass | rfl | isConfined
  · rw [isParameter] at isClass
    cases isClass
  · cases isParameter
  · exact isConfined

/-- Nothing says what a list without elements is a list of, which types a function is for that is
not called, or of which type nothing is: the type parameters of the list and of the functions are
left in the types, and no problem is reported. -/
theorem not_declaresAround_of_undecided :
    ∃ resolution,
      read "sample" ("val l = List()\nval f = ::identity\n" ++
          "fun <T> none(): T? = null\nval n = none()").toList = .ok resolution ∧
        resolution.diagnostics = [] ∧
          ∀ node ∈ [⟨.call, ⟨8, 14⟩⟩, ⟨.callableRef, ⟨23, 33⟩⟩, ⟨.call, ⟨68, 74⟩⟩],
            node.kind.isExpression = true ∧
              ∃ type ∈ resolution.type? node, ∃ constructor ∈ type.constructors,
                constructor.kind = .typeParameter ∧
                  ¬ resolution.file.DeclaresAround node constructor := by
  apply exists_of_read
  decide +kernel

end Resolution

end Gloss
