import Gloss.Table
import Gloss.Text.Basic

/-!
# Arguments

Arguments are options, the values of options and plain words.  A long option
may be shortened as long as one option remains, its value may follow an equals
sign; short options may share one argument, and a value may follow its short
option directly.  Two hyphens alone end the options.
-/

namespace Gloss.CommandLine

inductive Effect where
  | help
  | version
  | mark
  /-- It takes a value; if choices are given, one of them. -/
  | value (choices : Option (List String))
  deriving DecidableEq, Repr

structure OptionForm where
  key : String
  names : List String
  effect : Effect
  deriving DecidableEq, Repr

/-- The plain words that a command takes. -/
inductive WordForm where
  | one
  | several
  deriving DecidableEq, Repr

/-- Why reading arguments stops early. -/
inductive Halt where
  | help
  | version
  | misuse
  deriving DecidableEq, Repr

/-- What an argument holds beside the name of an option. -/
inductive Given where
  | nothing
  /-- Letters that follow the name of a short option directly. -/
  | joined (letters : String)
  | afterEquals (value : String)
  deriving DecidableEq, Repr

inductive Look where
  | word
  | separator
  | option (form : OptionForm) (given : Given)
  /-- Something that looks like an option but is none. -/
  | unknown
  deriving DecidableEq, Repr

structure Cluster where
  /-- The options in order with their values; a value that is still to come is
  left out. -/
  options : List (OptionForm × Option String)
  /-- Whether the argument ends in letters that nothing takes. -/
  hasLeftover : Bool := false
  deriving DecidableEq, Repr

structure Reading where
  /-- The values of options; a mark has the empty value. -/
  values : Table String String := .empty
  words : List String := []
  /-- Whether an argument was left that nothing takes. -/
  hasLeftover : Bool := false
  deriving DecidableEq, Repr

namespace Look

def named? (options : List OptionForm) (name : String) : Option OptionForm :=
  options.find? fun form => name ∈ form.names

def splitEquals? (text : String) : Option (String × String) :=
  let before := text.toList.takeWhile (· != '=')
  match text.toList.drop before.length with
  | _ :: after => some (String.ofList before, String.ofList after)
  | [] => none

def candidates (options : List OptionForm) (argument : String) : List Look :=
  let isLong := Text.startsWith "--" argument
  let (start, given) := match isLong, splitEquals? argument with
    | true, some (start, value) => (start, Given.afterEquals value)
    | _, _ => (argument, .nothing)
  let short := String.ofList (argument.toList.take 2)
  options.flatMap fun form => form.names.filterMap fun name =>
    if !isLong && name = short then
      some (option form (.joined (Text.dropFirst 2 argument)))
    else if Text.startsWith start name then some (option form given)
    else none

def isNegativeNumber (argument : String) : Bool :=
  match argument.toList with
  | '-' :: digits =>
      let fraction := (digits.dropWhile Char.isDigit).drop 1
      let point := (digits.dropWhile Char.isDigit).take 1
      (!digits.isEmpty && digits.all Char.isDigit) ||
        (point == ['.'] && !fraction.isEmpty && fraction.all Char.isDigit)
  | _ => false

/-- What an argument looks like; nothing when it is short for several options. -/
def of? (options : List OptionForm) (argument : String) : Option Look :=
  if !Text.startsWith "-" argument || argument = "-" then some word
  else
    let exact := match named? options argument, splitEquals? argument with
      | some form, _ => some (option form .nothing)
      | none, some (name, value) =>
          (named? options name).map fun form => option form (.afterEquals value)
      | none, none => none
    match exact, candidates options argument with
    | some look, _ => some look
    | none, [look] => some look
    | none, _ :: _ :: _ => none
    | none, [] =>
        if isNegativeNumber argument || argument.toList.contains ' ' then some word
        else some unknown

/-- What arguments look like.  After two hyphens everything is a word. -/
def all? (options : List OptionForm) : List String → Option (List (String × Look))
  | [] => some []
  | argument :: rest =>
      if argument = "--" then
        some ((argument, separator) :: rest.map fun later => (later, word))
      else
        match of? options argument with
        | none => none
        | some look => (all? options rest).map fun looks => (argument, look) :: looks

end Look

namespace Cluster

def withValue? (form : OptionForm) (value : String) : Option Cluster :=
  match form.effect with
  | .value _ => some { options := [(form, some value)] }
  | _ => none

/-- An option and the letters that follow its name.  They are the value of an
option that takes one, and otherwise the names of further short options. -/
def joined? (options : List OptionForm) :
    (form : OptionForm) → (letters : List Char) → Option Cluster
  | form, [] =>
      match form.effect with
      | .value _ => some { options := [(form, none)] }
      | _ => some { options := [(form, some "")] }
  | form, letter :: rest =>
      match form.effect with
      | .value _ => withValue? form (String.ofList (letter :: rest))
      | _ =>
          if letter = '-' then none
          else
            match Look.named? options (String.ofList ['-', letter]) with
            | none => some { options := [(form, some "")], hasLeftover := true }
            | some next =>
                let later := match rest with
                  | '=' :: value => withValue? next (String.ofList value)
                  | _ => joined? options next rest
                later.map fun cluster =>
                  { cluster with options := (form, some "") :: cluster.options }

def of? (options : List OptionForm) (form : OptionForm) : Given → Option Cluster
  | .nothing => joined? options form []
  | .joined letters => joined? options form letters.toList
  | .afterEquals value => withValue? form value

end Cluster

namespace Reading

def withLeftover (reading : Reading) (isLeft : Bool := true) : Reading :=
  { reading with hasLeftover := reading.hasLeftover || isLeft }

def apply (reading : Reading) (form : OptionForm) (value : String) : Except Halt Reading :=
  match form.effect with
  | .help => .error .help
  | .version => .error .version
  | .mark => .ok { reading with values := reading.values.insert form.key "" }
  | .value none => .ok { reading with values := reading.values.insert form.key value }
  | .value (some choices) =>
      if value ∈ choices then
        .ok { reading with values := reading.values.insert form.key value }
      else .error .misuse

def applyAll (reading : Reading) : List (OptionForm × Option String) → Except Halt Reading
  | [] => .ok reading
  | (form, value) :: rest =>
      match reading.apply form (value.getD "") with
      | .error halt => .error halt
      | .ok changed => applyAll changed rest

/-- The words at the beginning of some arguments, up to the next option. -/
def wordsOf (looks : List (String × Look)) : List (String × Look) :=
  looks.takeWhile fun look => look.2 = .word || look.2 = .separator

/-- How many of the words at the beginning a command takes at once. -/
def taken (form : WordForm) (looks : List (String × Look)) : Nat :=
  let opening := if looks.head?.map Prod.snd = some .separator then 1 else 0
  match looks.drop opening with
  | (_, .word) :: rest =>
      match form, rest with
      | .several, _ => looks.length
      | .one, (_, .separator) :: _ => opening + 2
      | .one, _ => opening + 1
  | _ => 0

/-- Reads arguments; `awaited` are the words still to come. -/
def readAll (options : List OptionForm) : (limit : Nat) → (awaited : Option WordForm) →
    Reading → List (String × Look) → Except Halt (Option WordForm × Reading)
  | 0, awaited, reading, _ | _, awaited, reading, [] => .ok (awaited, reading)
  | limit + 1, awaited, reading, (_, .unknown) :: rest =>
      readAll options limit awaited reading.withLeftover rest
  | limit + 1, awaited, reading, (_, .option form given) :: rest =>
      match Cluster.of? options form given with
      | none => .error .misuse
      | some cluster =>
          let found := cluster.options
          match found.getLast?, rest with
          | some (last, none), (word, .word) :: later =>
              match reading.applyAll (found.dropLast ++ [(last, some word)]) with
              | .error halt => .error halt
              | .ok changed => readAll options limit awaited changed later
          | some (_, none), _ => .error .misuse
          | _, _ =>
              match (reading.withLeftover cluster.hasLeftover).applyAll found with
              | .error halt => .error halt
              | .ok changed => readAll options limit awaited changed rest
  | limit + 1, awaited, reading, looks =>
      let segment := wordsOf looks
      match awaited with
      | none => readAll options limit none reading.withLeftover (looks.drop segment.length)
      | some form =>
          let count := taken form segment
          if count = 0 then
            readAll options limit awaited reading.withLeftover (looks.drop segment.length)
          else
            let words := (segment.take count).filter fun look => look.2 = .word
            readAll options limit none { reading with words := words.map Prod.fst }
              (looks.drop count)

def read (options : List OptionForm) (words : WordForm) (arguments : List String) :
    Except Halt Reading :=
  match Look.all? options arguments with
  | none => .error .misuse
  | some looks =>
      match readAll options (arguments.length + 1) (some words) {} looks with
      | .error halt => .error halt
      | .ok (some _, _) => .error .misuse
      | .ok (none, reading) => .ok reading

end Reading

end Gloss.CommandLine
