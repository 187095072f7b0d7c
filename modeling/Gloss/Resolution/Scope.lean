import Gloss.Text.Quoted

/-!
# Scopes

A scope lists the symbols declared at one level of a file, several of which
may share a name.  Scopes are numbered in the order in which they are opened,
each inside of an earlier one; a lookup goes outwards and stops at the first
level that has what it looks for.  A symbol is seen from all scopes inside its
own, also from those that were opened before it was defined.
-/

namespace Gloss

inductive SymbolKind where
  | «class»
  | typeParameter
  | function
  | property
  | parameter
  | variable
  deriving DecidableEq, Repr

/-- A declared name and its meaning. -/
structure Symbol (δ : Type) where
  name : String
  kind : SymbolKind
  descriptor : δ
  deriving DecidableEq, Repr

/-- One level of a file with the number of the scope around it. -/
structure Scope (δ : Type) where
  name : String
  kind : String
  parent : Option Nat
  symbols : List (Symbol δ)
  deriving DecidableEq, Repr

/-- All scopes that were opened, the newest first. -/
structure Scopes (δ : Type) where
  newestFirst : List (Scope δ)
  deriving DecidableEq, Repr

namespace SymbolKind

def all : List SymbolKind :=
  [.class, .typeParameter, .function, .property, .parameter, .variable]

def label : SymbolKind → String
  | .class => "class"
  | .typeParameter => "type-parameter"
  | .function => "function"
  | .property => "property"
  | .parameter => "parameter"
  | .variable => "variable"

def ofLabel? (label : String) : Option SymbolKind :=
  all.find? fun kind => kind.label = label

def isValue : SymbolKind → Bool
  | .property | .parameter | .variable => true
  | _ => false

def isClassifier : SymbolKind → Bool
  | .class | .typeParameter => true
  | _ => false

end SymbolKind

namespace Scope

variable {δ : Type}

def symbolsNamed (scope : Scope δ) (name : String) : List (Symbol δ) :=
  scope.symbols.filter fun symbol => symbol.name = name

/-- The names of the symbols, each once, in the order of their definition. -/
def names (scope : Scope δ) : List String :=
  (scope.symbols.map Symbol.name).eraseDups

def grouped (scope : Scope δ) : List (Symbol δ) :=
  scope.names.flatMap scope.symbolsNamed

/-- The first earlier symbol that a new one collides with.  Functions do not
collide with functions. -/
def conflict? (scope : Scope δ) (symbol : Symbol δ) : Option (Symbol δ) :=
  (scope.symbolsNamed symbol.name).find? fun earlier =>
    !(symbol.kind = .function && earlier.kind = .function)

def add (scope : Scope δ) (symbol : Symbol δ) : Scope δ :=
  { scope with symbols := scope.symbols ++ [symbol] }

/-- The scope in words, its names in the order of their code points. -/
def render (scope : Scope δ) : String :=
  let sorted := scope.names.mergeSort fun first second => !(second < first)
  "Scope(" ++ Text.Quoted.encode scope.name ++ ", kind=" ++
    Text.Quoted.encode scope.kind ++ ", names=[" ++
    Text.joined ", " (sorted.map Text.Quoted.encode) ++ "])"

end Scope

namespace Scopes

variable {δ : Type}

def root (name kind : String) : Scopes δ :=
  ⟨[{ name, kind, parent := none, symbols := [] }]⟩

def size (scopes : Scopes δ) : Nat := scopes.newestFirst.length

def openIn (scopes : Scopes δ) (parent : Nat) (name kind : String) : Scopes δ :=
  ⟨{ name, kind, parent := some parent, symbols := [] } :: scopes.newestFirst⟩

def scopeIn (number : Nat) : List (Scope δ) → Option (Scope δ)
  | [] => none
  | scope :: older => if number = older.length then some scope else scopeIn number older

def scope? (scopes : Scopes δ) (number : Nat) : Option (Scope δ) :=
  scopeIn number scopes.newestFirst

/-- Changes the scope with a number among scopes that end with number zero. -/
def updateIn (number : Nat) (change : Scope δ → Scope δ) : List (Scope δ) → List (Scope δ)
  | [] => []
  | scope :: older =>
      if number = older.length then change scope :: older
      else scope :: updateIn number change older

def conflict? (scopes : Scopes δ) (number : Nat) (symbol : Symbol δ) : Option (Symbol δ) :=
  (scopes.scope? number).bind fun scope => scope.conflict? symbol

def define (scopes : Scopes δ) (number : Nat) (symbol : Symbol δ) : Scopes δ :=
  ⟨updateIn number (fun scope => scope.add symbol) scopes.newestFirst⟩

/-- The scope with a number and the scopes around it, the innermost first. -/
def levelsIn : Nat → List (Scope δ) → List (Scope δ)
  | _, [] => []
  | number, scope :: older =>
      if number = older.length then
        scope :: (match scope.parent with
          | none => []
          | some parent => levelsIn parent older)
      else levelsIn number older

def levels (scopes : Scopes δ) (number : Nat) : List (Scope δ) :=
  levelsIn number scopes.newestFirst

/-- The symbols of the innermost level that has an acceptable one with the
name; of that level, all acceptable ones with the name. -/
def lookup (scopes : Scopes δ) (number : Nat) (accept : SymbolKind → Bool)
    (name : String) : List (Symbol δ) :=
  let found := (scopes.levels number).map fun scope =>
    (scope.symbolsNamed name).filter fun symbol => accept symbol.kind
  (found.find? fun symbols => !symbols.isEmpty).getD []

def classifier? (scopes : Scopes δ) (number : Nat) (name : String) : Option (Symbol δ) :=
  (scopes.lookup number SymbolKind.isClassifier name).head?

end Scopes

end Gloss
