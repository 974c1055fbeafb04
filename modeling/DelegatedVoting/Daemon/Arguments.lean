/-!
# Arguments

The words after the name of a program are options, the values of options, and free words. An option
starts with two hyphens; its value follows an equals sign or is the next word. An option that is not
given may be set by a variable of the environment instead.

The value in the next word is looked at only when the next option comes, or at the end: who asks for
help in between gets it.

* `Switch`: an option that a program accepts;
* `Stop`: why the reading of the arguments stops;
* `Given`: the options that have been given;
* `Scan`, `scan`: the options in front of a free word, and that word with all that follows it;
* `words`: the free words, where nothing but free words and options may come;
* `withVariables`: the options that have been given, and those that variables set.
-/

namespace DelegatedVoting.Arguments

/-- An option of a program. -/
structure Switch where
  name : String
  /-- Whether the option has a value. -/
  hasValue : Bool
  /-- The variable that sets the option, if there is one. -/
  variableName : Option String
  /-- Whether a text is acceptable as the value. -/
  accepts : String → Bool

/-- Why the reading of the arguments stops. -/
inductive Stop
  /-- The arguments are not acceptable. -/
  | usage
  /-- The user wants to know about the arguments. -/
  | help
  deriving DecidableEq, Repr

/-- The options that have been given, with their values. -/
abbrev Given := List (String × String)

/-- The value of an option. -/
def Given.get? (g : Given) (name : String) : Option String := g.lookup name

/-- Whether an option is given. -/
def Given.has (g : Given) (name : String) : Bool := (g.get? name).isSome

/-- The options with one more, which must not have been given before. -/
def give (g : Given) (s : Switch) (value : String) : Except Stop Given :=
  if g.has s.name ∨ ¬ s.accepts value then .error .usage else .ok ((s.name, value) :: g)

/-- Whether a word is an option or wants to be one. -/
def isOption (word : String) : Bool :=
  match word.toList with
  | '-' :: _ :: _ => true
  | _ => false

/-- The name of an option and the value after the equals sign. -/
def splitValue (word : String) : String × Option String :=
  let s := word.toList
  match s.dropWhile (· ≠ '=') with
  | [] => (word, none)
  | _ :: value => (String.ofList (s.takeWhile (· ≠ '=')), some (String.ofList value))

/-- What an option without a value that wants none stands for. -/
def present : String := "true"

/-- Whether a word asks for help. -/
def isHelp (word : String) : Bool :=
  word = "--help" ||
    match word.toList with
    | '-' :: 'h' :: _ => true
    | _ => false

/-- The options in front of a free word. -/
structure Scan where
  given : Given
  /-- The last option, if its value in the next word has not been looked at yet. -/
  waiting : Option (Switch × String) := none
  /-- The free word and all that follows it. -/
  rest : List String := []

/-- The options after the last one has been looked at. -/
def Scan.settle (s : Scan) : Except Stop Given :=
  match s.waiting with
  | none => .ok s.given
  | some (switch, value) => give s.given switch value

/-- Read the options in front of a free word, where `s` tells those that have been read. -/
def scan (switches : List Switch) (s : Scan) : List String → Except Stop Scan
  | [] => .ok { s with rest := [] }
  | word :: rest =>
    if word = "--" then .error .usage
    else if isHelp word then do
      let _ ← s.settle
      throw .help
    else if isOption word then
      let (name, value) := splitValue word
      match switches.find? fun s => s.name = name with
      | none => .error .usage
      | some switch =>
        match switch.hasValue, value, rest with
        | true, some value, rest => do
          let g ← give (← s.settle) switch value
          scan switches ⟨g, none, []⟩ rest
        | true, none, value :: rest =>
          if isOption value then .error .usage
          else do
            let g ← s.settle
            scan switches ⟨g, some (switch, value), []⟩ rest
        | true, none, [] => .error .usage
        | false, none, rest => do
          let g ← give (← s.settle) switch present
          scan switches ⟨g, none, []⟩ rest
        | false, some _, _ => .error .usage
    else .ok { s with rest := word :: rest }

/-- The free words, each of which must be acceptable at its place. After two hyphens every word is
free. -/
def words (accepts : List (String → Bool)) : Bool → List String → Except Stop (List String)
  | _, [] => if accepts.isEmpty then .ok [] else .error .usage
  | free, word :: rest =>
    if !free && word = "--" then words accepts true rest
    else if !free && isHelp word then .error .help
    else if !free && isOption word then .error .usage
    else
      match accepts with
      | [] => .error .usage
      | f :: accepts =>
        if f word then (words accepts free rest).map (word :: ·) else .error .usage

/-- The options that have been given, and those that variables set. -/
def withVariables (switches : List Switch) (environment : String → Option String) (g : Given) :
    Except Stop Given :=
  switches.foldlM (fun g s =>
    if g.has s.name then .ok g
    else match s.variableName >>= environment with
      | some value => give g s value
      | none => .ok g) g

end DelegatedVoting.Arguments
