/-!
# Options

The options that a command takes, and reading them from the words of a command line. An option has a
long name and perhaps a letter; its value follows as a word of its own, or in the same word.
-/

namespace CubeQuery.CommandLine

/-- How often an option may be given, and whether a value comes with it. -/
inductive Arity where
  /-- At most once, without a value. -/
  | flag
  /-- At most once, with a value. -/
  | once
  /-- Any number of times, each with a value. -/
  | repeated
deriving DecidableEq, Repr

structure OptionForm where
  name : String
  letter : Option Char
  arity : Arity
  /-- The name of the value in the help text. -/
  valueName : String
  about : String
  /-- The values that are allowed. -/
  accepts : String → Bool

inductive UsageError where
  | unexpected (word : String)
  | missingValue (option : String)
  | invalidValue (option value : String)
  | givenTwice (option : String)
  | missingOption (option : String)
  | missingCommand
deriving DecidableEq, Repr

def UsageError.message : UsageError → String
  | .unexpected word => s!"error: unexpected argument '{word}' found"
  | .missingValue option => s!"error: a value is required for '--{option}'"
  | .invalidValue option value => s!"error: invalid value '{value}' for '--{option}'"
  | .givenTwice option => s!"error: the argument '--{option}' cannot be used multiple times"
  | .missingOption option => s!"error: the option '--{option}' was not provided"
  | .missingCommand => "error: a command is required"

inductive Stop where
  | usage (cause : UsageError)
  /-- A short or a full help text is asked for. -/
  | help (full : Bool)
  | version
deriving DecidableEq, Repr

/-- An option as given, with an empty value for a flag. -/
structure Given where
  name : String
  value : String
deriving DecidableEq, Repr

inductive Shape where
  | plain
  /-- Two dashes alone, after which no word is an option. -/
  | escape
  | long (name : String) (value : Option String)
  | short (letter : Char) (attached : List Char)
deriving DecidableEq, Repr

/-- The name and, behind an equals sign, the value of a long option. -/
def splitLong (cs : List Char) : Shape :=
  .long (String.ofList (cs.takeWhile (· != '=')))
    (match cs.dropWhile (· != '=') with
      | [] => none
      | _ :: value => some (String.ofList value))

def Shape.ofWord (word : String) : Shape :=
  match word.toList with
  | '-' :: '-' :: [] => .escape
  | '-' :: '-' :: cs => splitLong cs
  | '-' :: c :: cs => .short c cs
  | _ => .plain

/-- The value in the same word as a letter; an equals sign before it is dropped. -/
def attachedValue? : List Char → Option String
  | [] => none
  | '=' :: cs => some (String.ofList cs)
  | cs => some (String.ofList cs)

def addGiven (form : OptionForm) (value : String) (given : List Given) :
    Except Stop (List Given) :=
  if form.arity != .repeated ∧ given.any (·.name == form.name) then
    .error (.usage (.givenTwice form.name))
  else if form.accepts value then .ok (given ++ [⟨form.name, value⟩])
  else .error (.usage (.invalidValue form.name value))

inductive Progress where
  /-- Everything the word says has been taken. -/
  | taken (given : List Given)
  /-- The value of an option has to follow. -/
  | pending (form : OptionForm)

def takeOption (form : OptionForm) (value : Option String) (given : List Given) :
    Except Stop Progress :=
  match form.arity, value with
  | .flag, some v => .error (.usage (.invalidValue form.name v))
  | .flag, none => (addGiven form "" given).map .taken
  | _, some v => (addGiven form v given).map .taken
  | _, none => .ok (.pending form)

structure OptionSet where
  forms : List OptionForm
  versioned : Bool

def takeLong (s : OptionSet) (name : String) (value : Option String) (given : List Given) :
    Except Stop Progress :=
  if name = "help" ∧ value = none then .error (.help true)
  else if name = "version" ∧ value = none ∧ s.versioned then .error .version
  else
    match s.forms.find? (·.name == name) with
    | some form => takeOption form value given
    | none => .error (.usage (.unexpected ("--" ++ name)))

def takeShort (s : OptionSet) (letter : Char) (attached : List Char) (given : List Given) :
    Except Stop Progress :=
  if letter = 'h' then .error (.help false)
  else if letter = 'V' ∧ s.versioned then .error .version
  else
    match s.forms.find? (·.letter == some letter) with
    | some form => takeOption form (attachedValue? attached) given
    | none => .error (.usage (.unexpected (String.ofList ['-', letter])))

/-- The options at the front of a command line, and the first other word with those after it. A value
in a word of its own is judged only when the next option comes, so the last one may be at fault. -/
structure Front where
  given : Except Stop (List Given)
  rest : Option (String × List String)

/-- Reads options; an option whose value is still missing is `pending`. -/
def readOptions (s : OptionSet) (pending : Option OptionForm) (given : Except Stop (List Given)) :
    List String → Except Stop Front
  | [] =>
    match pending with
    | some form => .error (.usage (.missingValue form.name))
    | none => .ok ⟨given, none⟩
  | word :: words =>
    match Shape.ofWord word, pending with
    | .plain, some form => readOptions s none (given.bind (addGiven form word)) words
    | _, some form => .error (.usage (.missingValue form.name))
    | .plain, none => .ok ⟨given, some (word, words)⟩
    | .escape, none =>
      match words with
      | [] => .ok ⟨given, none⟩
      | word :: _ => .error (.usage (.unexpected word))
    | .long name value, none => do
      match ← takeLong s name value (← given) with
      | .taken given => readOptions s none (.ok given) words
      | .pending form => readOptions s (some form) given words
    | .short letter attached, none => do
      match ← takeShort s letter attached (← given) with
      | .taken given => readOptions s none (.ok given) words
      | .pending form => readOptions s (some form) given words

def readAll (s : OptionSet) (words : List String) : Except Stop (List Given) := do
  match ← readOptions s none (.ok []) words with
  | ⟨given, none⟩ => given
  | ⟨_, some (word, _)⟩ => throw (.usage (.unexpected word))

def has (given : List Given) (name : String) : Bool := given.any (·.name == name)

def valuesOf (given : List Given) (name : String) : List String :=
  (given.filter (·.name == name)).map (·.value)

def valueOf? (given : List Given) (name : String) : Option String := (valuesOf given name).head?

def required (given : List Given) (name : String) : Except Stop String :=
  match valueOf? given name with
  | some v => .ok v
  | none => .error (.usage (.missingOption name))

end CubeQuery.CommandLine
