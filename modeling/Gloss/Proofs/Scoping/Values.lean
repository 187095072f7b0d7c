import Gloss.Proofs.Order.Views
import Gloss.Proofs.References.Walks

/-!
# Which values are seen from where

What a name stands for where it is an expression can be told from the tree alone: it is
found among the values declared in the nodes above, the innermost first.  Levels of symbols
show such levels of values if their values are described one by one, and then looking a name
up finds the same in both.
-/

namespace Gloss

/-- Something that a name can stand for where it is an expression: what a declaration
declares, or the parameter of a constructor that goes with the declaration. -/
structure Value where
  name : String
  declaration : NodeRef
  ofConstructor : Bool
  deriving DecidableEq, Repr

namespace Tree

def Property.value (declared : Property) : Value where
  name := declared.name
  declaration := (Node.property declared).ref
  ofConstructor := false

def ValueParameter.value (parameter : ValueParameter) : Value where
  name := parameter.name
  declaration := (Node.valueParameter parameter).ref
  ofConstructor := false

namespace ConstructorParameter

/-- The parameter of the constructor. -/
def value (parameter : ConstructorParameter) : Value where
  name := parameter.name
  declaration := (Node.constructorParameter parameter).ref
  ofConstructor := true

/-- The property that the parameter declares if it has a binding. -/
def property? (parameter : ConstructorParameter) : Option Value :=
  parameter.binding.map fun _ => { parameter.value with ofConstructor := false }

end ConstructorParameter

def Member.property? : Member → Option Value
  | .property declared => some declared.value
  | .function _ => none

/-- The properties of a class, those of its constructor parameters first. -/
def Class.propertyValues (declaration : Class) : List Value :=
  declaration.constructorParameters.filterMap ConstructorParameter.property? ++
    declaration.members.filterMap Member.property?

/-- The levels of values that are seen in a class from some part of it: from the initializer
of a property all parameters of the constructor come before the properties. -/
def Class.valueLevels (declaration : Class) : Node → List (List Value)
  | .property _ =>
      [declaration.constructorParameters.map ConstructorParameter.value,
        declaration.propertyValues]
  | _ => [declaration.propertyValues]

def TopLevel.property? : TopLevel → Option Value
  | .member declared => declared.property?
  | .class _ => none

def Statement.variable? : Statement → Option Value
  | .variable declared => some declared.value
  | .expression _ => none

end Tree

namespace Node

/-- The levels of values that are declared right in a node, as they are seen from an offset
in some part of it.  In a block these are the local variables of earlier statements. -/
def valueLevels (node : Node) (offset : Nat) (part : Node) : List (List Value) :=
  match node with
  | .block steps =>
      let earlier := steps.statements.filter fun step => step.node.span.stop ≤ offset
      [earlier.filterMap Tree.Statement.variable?]
  | .function declared => [declared.parameters.map Tree.ValueParameter.value]
  | .class declared => declared.valueLevels part
  | .file source => [source.declarations.filterMap Tree.TopLevel.property?]
  | _ => []

/-- The levels of values that are seen from an offset in a node with other nodes above it. -/
def valuesAround (offset : Nat) : Node → List Node → List (List Value)
  | _, [] => []
  | part, node :: above => node.valueLevels offset part ++ valuesAround offset node above

end Node

namespace Occurrence

/-- The levels of values that are seen from a node, the innermost first. -/
def values (occurrence : Occurrence) : List (List Value) :=
  occurrence.node.valuesAround occurrence.node.span.start occurrence.above

/-- What a name sees: the first value of that name on the innermost level that has one. -/
def seen? (occurrence : Occurrence) : Option Value :=
  match occurrence.node with
  | .expression (.name name) =>
      occurrence.values.findSome? fun level => level.find? fun value => value.name = name.text
  | _ => none

end Occurrence

/-! ### Symbols of values -/

namespace VariableDescriptor

/-- The variable is what is meant by the value.  Of the two descriptors of a constructor
parameter with a binding, the parameter is the one of the constructor. -/
def Fits (value : Value) : VariableDescriptor → Prop
  | .parameter _ _ => value.ofConstructor = true ↔ value.declaration.kind = .constructorParameter
  | .property _ | .local _ => value.ofConstructor = false

end VariableDescriptor

/-- The symbol has the name of the value and describes it. -/
structure Symbol.Shows (symbol : Symbol Descriptor) (value : Value) : Prop where
  name : symbol.name = value.name
  describes : ∃ held, symbol.descriptor = .variable held ∧
    held.declaration = some value.declaration ∧ held.Fits value

/-- The values among the symbols of a level are shown one by one. -/
def ShowsLevel (level : List (Symbol Descriptor)) (values : List Value) : Prop :=
  List.Forall₂ Symbol.Shows (level.filter fun symbol => symbol.kind.isValue) values

/-- Levels of symbols show levels of values; in between there may be levels without values. -/
inductive ShowsLevels : List (List (Symbol Descriptor)) → List (List Value) → Prop
  | nil : ShowsLevels [] []
  | level {level : List (Symbol Descriptor)} {values : List Value}
      {levels : List (List (Symbol Descriptor))} {around : List (List Value)}
      (shows : ShowsLevel level values) (outer : ShowsLevels levels around) :
      ShowsLevels (level :: levels) (values :: around)
  | without {level : List (Symbol Descriptor)} {levels : List (List (Symbol Descriptor))}
      {around : List (List Value)} (none : ShowsLevel level [])
      (outer : ShowsLevels levels around) :
      ShowsLevels (level :: levels) around

section Levels

variable {level : List (Symbol Descriptor)} {values : List Value}
  {levels others : List (List (Symbol Descriptor))} {valuesAround othersAround : List (List Value)}
  {symbol : Symbol Descriptor} {value : Value}

/-- A level without values shows none. -/
theorem showsLevel_nil_iff :
    ShowsLevel level [] ↔ ∀ symbol ∈ level, symbol.kind.isValue = false := by
  rw [ShowsLevel, List.forall₂_nil_right_iff, List.filter_eq_nil_iff]
  simp

theorem ShowsLevel.append {first second : List (Symbol Descriptor)} {earlier later : List Value}
    (shows : ShowsLevel first earlier) (showsLater : ShowsLevel second later) :
    ShowsLevel (first ++ second) (earlier ++ later) := by
  rw [ShowsLevel, List.filter_append]
  exact List.rel_append shows showsLater

/-- The first symbol of a value with a name shows the first value with the name. -/
theorem ShowsLevel.rel_find? (shows : ShowsLevel level values) (name : String) :
    Option.Rel Symbol.Shows
      ((level.filter fun symbol => symbol.name = name).filter fun symbol =>
        symbol.kind.isValue).head?
      (values.find? fun value => value.name = name) := by
  rw [List.filter_comm]
  unfold ShowsLevel at shows
  generalize level.filter (fun symbol => symbol.kind.isValue) = symbols at shows ⊢
  induction shows with
  | nil => exact .none
  | @cons symbol value symbols values showsFirst _ ih =>
      by_cases named : value.name = name
      · have alsoNamed : symbol.name = name := showsFirst.name.trans named
        simpa [named, alsoNamed] using Option.Rel.some showsFirst
      · have notNamed : ¬ symbol.name = name := showsFirst.name ▸ named
        simpa [named, notNamed] using ih

/-- Looking a name up finds a symbol that shows the value which is seen. -/
theorem ShowsLevels.rel_lookup {around : Surroundings} {valuesAround : List (List Value)}
    (shows : ShowsLevels around.levels valuesAround) (name : String) :
    Option.Rel Symbol.Shows (around.lookup SymbolKind.isValue name).head?
      (valuesAround.findSome? fun level => level.find? fun value => value.name = name) := by
  rw [Surroundings.lookup]
  generalize around.levels = levels at shows
  induction shows with
  | nil => exact .none
  | @level level values levels around shows _ ih =>
      have found := shows.rel_find? name
      rw [List.map_cons, List.find?_cons, List.findSome?_cons]
      generalize (level.filter fun symbol => symbol.name = name).filter
        (fun symbol => symbol.kind.isValue) = symbols at found ⊢
      generalize values.find? (fun value => value.name = name) = value at found ⊢
      cases symbols with
      | nil =>
          cases found
          exact ih
      | cons symbol rest =>
          cases found with
          | some shows => exact .some shows
  | @without level levels around none _ ih =>
      have found := none.rel_find? name
      rw [List.map_cons, List.find?_cons]
      generalize (level.filter fun symbol => symbol.name = name).filter
        (fun symbol => symbol.kind.isValue) = symbols at found ⊢
      cases symbols with
      | nil => exact ih
      | cons symbol rest => cases found

end Levels

/-! ### Levels around members

The levels of symbols that are seen from a member are those of the nodes above it.  Each of
them shows the values that the node declares. -/

open Gloss.Tree

theorem ShowsLevel.nil : ShowsLevel [] [] := List.Forall₂.nil

theorem ShowsLevel.singleton {symbol : Symbol Descriptor} {value : Value}
    (isValue : symbol.kind.isValue = true) (shows : symbol.Shows value) :
    ShowsLevel [symbol] [value] := by
  rw [ShowsLevel, List.filter_cons, if_pos isValue]
  exact .cons shows .nil

/-- Items that introduce symbols, each for the value that it declares, if it declares one. -/
theorem ShowsLevel.flatMap {α : Type} {items : List α} {symbols : α → List (Symbol Descriptor)}
    {value? : α → Option Value}
    (shows : ∀ item ∈ items, ShowsLevel (symbols item) (value? item).toList) :
    ShowsLevel (items.flatMap symbols) (items.filterMap value?) := by
  induction items with
  | nil => exact ShowsLevel.nil
  | cons item rest ih =>
      obtain ⟨showsItem, showsRest⟩ := List.forall_mem_cons.mp shows
      have together := showsItem.append (ih showsRest)
      cases declared : value? item with
      | none => simpa [declared] using together
      | some value => simpa [declared] using together

namespace Tree

variable (owner : Option ClassDescriptor) (classifiers : Classifiers)

namespace Member

theorem showsLevel_introduction (member : Member) :
    ShowsLevel [(member.introduction owner classifiers).symbol] member.property?.toList := by
  cases member with
  | function declared => exact showsLevel_nil_iff.mpr (List.forall_mem_singleton.mpr rfl)
  | property declared => exact .singleton rfl ⟨rfl, _, rfl, rfl, rfl⟩

end Member

namespace ConstructorParameter

variable (constructed : ClassDescriptor)

theorem showsLevel_property (parameter : ConstructorParameter) :
    ShowsLevel ((parameter.property constructed classifiers).toList.map Introduction.symbol)
      parameter.property?.toList := by
  cases binding : parameter.binding with
  | none => simpa [property, property?, binding] using ShowsLevel.nil
  | some bound =>
      simp only [property, property?, binding, Option.map_some, Option.toList_some, List.map_cons,
        List.map_nil]
      exact .singleton rfl ⟨rfl, _, rfl, rfl, rfl⟩

theorem showsLevel_introductions (parameters : List ConstructorParameter) (index : Nat) :
    ShowsLevel
      ((introductions constructed classifiers index parameters).map Introduction.symbol)
      (parameters.map value) := by
  induction parameters generalizing index with
  | nil => exact .nil
  | cons parameter rest ih =>
      have shows : ShowsLevel
          [(parameter.introduction constructed classifiers index).symbol] [parameter.value] :=
        .singleton rfl ⟨rfl, _, rfl, rfl, fun _ => rfl, fun _ => rfl⟩
      exact shows.append (ih (index + 1))

end ConstructorParameter

namespace Class

variable (declaration : Class)

theorem showsLevel_memberIntroductions :
    ShowsLevel ((declaration.memberIntroductions classifiers).map Introduction.symbol)
      declaration.propertyValues := by
  rw [memberIntroductions, List.map_append, properties, ConstructorParameter.properties,
    List.map_flatMap, List.map_map, List.map_eq_flatMap]
  refine (ShowsLevel.flatMap fun parameter _ => ?_).append (ShowsLevel.flatMap fun member _ => ?_)
  · exact parameter.showsLevel_property _ _
  · exact member.showsLevel_introduction _ _

theorem showsLevel_header : ShowsLevel (declaration.header.map Introduction.symbol) [] := by
  rw [showsLevel_nil_iff, header, List.map_map]
  exact List.forall_mem_map.mpr fun _ _ => rfl

end Class

/-- A function shows its parameters, but no type parameters. -/
theorem Function.showsLevel_level (function : Function) :
    ShowsLevel (function.level owner classifiers)
      (function.parameters.map ValueParameter.value) := by
  have typeParameters :
      ShowsLevel (function.typeParameterIntroductions.map Introduction.symbol) [] := by
    rw [showsLevel_nil_iff, typeParameterIntroductions, List.map_map]
    exact List.forall_mem_map.mpr fun _ _ => rfl
  refine typeParameters.append ?_
  rw [← function.map_fst_described owner classifiers, List.map_map, List.map_map,
    List.map_eq_flatMap, ← List.filterMap_eq_map]
  refine ShowsLevel.flatMap fun pair isDescribed => ?_
  have declared := Resolver.declaration_of_mem_describeParameters _ _ isDescribed
  refine .singleton rfl ⟨rfl, _, rfl, declared, fun constructed => ?_, fun kind => ?_⟩
  · cases constructed
  · cases kind

theorem TopLevel.showsLevel_level (contents : List TopLevel) :
    ShowsLevel (TopLevel.level contents) (contents.filterMap TopLevel.property?) := by
  have classes : ShowsLevel (TopLevel.classSymbols contents) [] :=
    showsLevel_nil_iff.mpr (List.forall_mem_map.mpr fun _ _ => rfl)
  refine classes.append (ShowsLevel.flatMap fun declared _ => ?_)
  cases declared with
  | «class» declaration => exact .nil
  | member declaration => exact declaration.showsLevel_introduction _ _

end Tree

theorem ResolutionState.showsLevel_librarySymbols :
    ShowsLevel ResolutionState.librarySymbols [] := by
  rw [showsLevel_nil_iff]
  exact List.forall_mem_append.mpr
    ⟨List.forall_mem_map.mpr fun _ _ => rfl, List.forall_mem_map.mpr fun _ _ => rfl⟩

end Gloss
