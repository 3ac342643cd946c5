import TemplateLint.Text.Decimal
import TemplateLint.Text.Find
import TemplateLint.Text.Quoted

/-!
# Interfaces of commands

An `Interface` describes the arguments of a command: options, which begin with a dash, and one
operand, which is what the command works on. `Interface.classify` sorts the arguments out,
`Interface.parse` reads them from left to right into the settings of the command.

* A long option may be shortened as long as one option only begins that way. Its value is the next
  argument, or what follows an equals sign; a double dash behind the equals sign is no value, and
  the option is then left blank.
* Short options without a value can be written together behind one dash, with an equals sign
  behind the first of them or without.
* Everything after a double dash is an operand; so is a negative number, and so is an argument with
  a space in it that no option can be read from.
* The operand is taken from the first run of arguments between options that has one. Operands
  after that, and options that do not exist, are complained about together at the end.

What is wrong with the arguments is a `UsageError`; `UsageError.message` words it.
-/

namespace TemplateLint.CommandLine

open TemplateLint.Text

/-- Why a value does not suit an option. -/
inductive ValueFault where
  /-- It is none of the values that the option can have. -/
  | notAmong (choices : List String)
  | notInteger
  deriving DecidableEq

/-- What meeting an option does to the settings. -/
inductive Action (σ : Type) where
  /-- Ends the command by explaining it. -/
  | help
  | flag (set : σ → σ)
  /-- Takes a value; `blank` is what the option does if it is left blank. -/
  | value (read : String → Except ValueFault (σ → σ)) (blank : σ → σ)

/-- Whether the option wants a value. -/
def Action.takesValue {σ : Type} : Action σ → Bool
  | .value _ _ => true
  | _ => false

/-- An option of a command. -/
structure Switch (σ : Type) where
  /-- Its spellings. -/
  spellings : List String
  action : Action σ

/-- How messages name an option. -/
def Switch.title {σ : Type} (switch : Switch σ) : String :=
  String.intercalate "/" switch.spellings

/-- The arguments of a command. -/
structure Interface (σ : Type) where
  program : String
  usage : String
  /-- What the command's help says after the usage. -/
  manual : String
  switches : List (Switch σ)
  /-- The name of the operand. -/
  operand : String
  /-- Whether there may be several operands. -/
  repeated : Bool
  /-- Puts the operands into the settings. -/
  store : List String → σ → σ

/-- What is wrong with the arguments of a command. -/
inductive UsageError where
  | ambiguous (argument : String) (candidates : List String)
  /-- A value was given to an option that takes none. -/
  | unwantedValue (option value : String)
  | missingValue (option : String)
  | invalidChoice (option value : String) (choices : List String)
  | invalidInteger (option value : String)
  | missingOperand (name : String)
  | unrecognized (arguments : List String)
  deriving DecidableEq

/-- The wording of each cause. -/
def UsageError.message : UsageError → String
  | .ambiguous argument candidates =>
    "ambiguous option: " ++ argument ++ " could match " ++ String.intercalate ", " candidates
  | .unwantedValue option value =>
    "argument " ++ option ++ ": ignored explicit argument " ++ quoted value
  | .missingValue option => "argument " ++ option ++ ": expected one argument"
  | .invalidChoice option value choices =>
    "argument " ++ option ++ ": invalid choice: " ++ quoted value ++ " (choose from " ++
      String.intercalate ", " (choices.map quoted) ++ ")"
  | .invalidInteger option value =>
    "argument " ++ option ++ ": invalid int value: " ++ quoted value
  | .missingOperand name => "the following arguments are required: " ++ name
  | .unrecognized arguments =>
    "unrecognized arguments: " ++ String.intercalate " " arguments

/-- Why reading the arguments ended early. -/
inductive Stop where
  /-- Help was asked for. -/
  | help
  | usage (error : UsageError)
  deriving DecidableEq

/-! ### Sorting arguments out -/

/-- What an argument is, by its form. -/
inductive Token (σ : Type) where
  | operand
  /-- The double dash. -/
  | separator
  /-- An option, with the text that is attached to it in the same argument. -/
  | switch (switch : Switch σ) (spelling : String) (attached : Option (List Char))
  /-- An option that does not exist. -/
  | unknown

/-- Whether the token is an option of some kind. -/
def Token.isOption {σ : Type} : Token σ → Bool
  | .switch _ _ _ => true
  | .unknown => true
  | _ => false

/-- Whether the token is the double dash. -/
def Token.isSeparator {σ : Type} : Token σ → Bool
  | .separator => true
  | _ => false

/-- Whether a text is a minus sign and digits, with a point among or before them or none. A line
end after them does not matter. -/
def looksNegative (argument : List Char) : Bool :=
  let isDecimal (text : List Char) : Bool :=
    match text.dropWhile isDigit with
    | [] => !text.isEmpty
    | '.' :: places => !places.isEmpty && places.all isDigit
    | _ => false
  match argument with
  | '-' :: rest => isDecimal rest || (rest.getLast? == some '\n' && isDecimal rest.dropLast)
  | _ => false

namespace Interface

variable {σ : Type}

/-- The options with each of their spellings. -/
def spellings (interface : Interface σ) : List (String × Switch σ) :=
  interface.switches.flatMap fun switch => switch.spellings.map (·, switch)

/-- The option of a spelling. -/
def switch? (interface : Interface σ) (spelling : String) : Option (Switch σ) :=
  interface.spellings.lookup spelling

/-- The part of an argument before its first equals sign, and the part after it. -/
def splitEquals (argument : List Char) : List Char × Option (List Char) :=
  match splitFirst? ['='] argument with
  | some (before, later) => (before, some later)
  | none => (argument, none)

/-- The options that an argument can be read as although it is not spelled like one: shortened
long options, or a short option with more behind it. -/
def readings (interface : Interface σ) (argument : List Char) :
    List (String × Switch σ × Option (List Char)) :=
  match argument with
  | '-' :: '-' :: _ =>
    let (stem, attached) := splitEquals argument
    interface.spellings.filterMap fun (spelling, switch) =>
      if stem.isPrefixOf spelling.toList then some (spelling, switch, attached) else none
  | '-' :: letter :: rest =>
    interface.spellings.filterMap fun (spelling, switch) =>
      if spelling.toList = ['-', letter] then some (spelling, switch, some rest)
      else if argument.isPrefixOf spelling.toList then some (spelling, switch, none)
      else none
  | _ => []

/-- What an argument in front of the double dash is. -/
def token (interface : Interface σ) (argument : String) : Except UsageError (Token σ) :=
  let text := argument.toList
  if text.head? ≠ some '-' then .ok .operand
  else
    match interface.switch? argument with
    | some switch => .ok (.switch switch argument none)
    | none =>
      if text.length = 1 then .ok .operand
      else
        let (stem, attached) := splitEquals text
        match interface.switch? (String.ofList stem), attached with
        | some switch, some text => .ok (.switch switch (String.ofList stem) (some text))
        | _, _ =>
          match interface.readings text with
          | [(spelling, switch, attached)] => .ok (.switch switch spelling attached)
          | first :: second :: more =>
            .error (.ambiguous argument ((first :: second :: more).map Prod.fst))
          | [] => .ok (if looksNegative text || text.contains ' ' then .operand else .unknown)

/-- The arguments with what each of them is. -/
def classify (interface : Interface σ) : List String → Except UsageError (List (String × Token σ))
  | [] => .ok []
  | argument :: arguments =>
    if argument = "--" then .ok ((argument, .separator) :: arguments.map (·, .operand))
    else do
      let token ← interface.token argument
      return (argument, token) :: (← interface.classify arguments)

/-! ### Reading arguments -/

/-- What has been read so far. -/
structure State (σ : Type) where
  settings : σ
  /-- Whether the operand has been taken. -/
  supplied : Bool
  /-- Arguments that nothing was made of. -/
  extras : List String

/-- The effect of an option, with its value if it takes one. A double dash leaves it blank. -/
def perform (switch : Switch σ) (value : String) (settings : σ) : Except Stop σ :=
  match switch.action with
  | .help => .error .help
  | .flag set => .ok (set settings)
  | .value read blank =>
    if value = "--" then .ok (blank settings)
    else
      match read value with
      | .ok set => .ok (set settings)
      | .error (.notAmong choices) =>
        .error (.usage (.invalidChoice switch.title value choices))
      | .error .notInteger => .error (.usage (.invalidInteger switch.title value))

/-- What one argument turned out to say: options that take no value, then one more option. -/
structure Cluster (σ : Type) where
  flags : List (Switch σ)
  last : Switch σ
  /-- The value that is attached to the last option. -/
  value : Option String

/-- Takes the text apart that is attached to an option. It is the value of an option that takes
one. Behind a short option that takes none it is more short options, each of which may be the one
with a value; `flags` are the options in front. -/
def cluster (interface : Interface σ) (flags : List (Switch σ)) (switch : Switch σ)
    (short : Bool) (text : List Char) : Except UsageError (Cluster σ) :=
  if switch.action.takesValue then .ok ⟨flags, switch, some (String.ofList text)⟩
  else
    match text, short with
    | c :: rest, true =>
      match interface.switch? (String.ofList ['-', c]) with
      | none => .error (.unwantedValue switch.title (String.ofList text))
      | some next =>
        if rest.isEmpty then .ok ⟨flags ++ [switch], next, none⟩
        else interface.cluster (flags ++ [switch]) next true rest
    | _, _ => .error (.unwantedValue switch.title (String.ofList text))
termination_by text.length

/-- The options in one argument. -/
def clusterOf (interface : Interface σ) (switch : Switch σ) (spelling : String) :
    Option (List Char) → Except UsageError (Cluster σ)
  | none => .ok ⟨[], switch, none⟩
  | some text => interface.cluster [] switch ((spelling.toList.drop 1).head? != some '-') text

/-- The value of an option that has none attached is the next argument, if that is an operand. -/
def valueFor (switch : Switch σ) (tokens : List (String × Token σ)) :
    Except UsageError (String × List (String × Token σ)) :=
  if switch.action.takesValue then
    match tokens with
    | (value, .operand) :: later => .ok (value, later)
    | _ => .error (.missingValue switch.title)
  else .ok ("", tokens)

private theorem length_of_valueFor {switch : Switch σ} {tokens later : List (String × Token σ)}
    {value : String} (h : valueFor switch tokens = .ok (value, later)) :
    later.length ≤ tokens.length := by
  unfold valueFor at h
  split at h
  · split at h
    · cases h; simp
    · simp at h
  · cases h; simp

/-- Carries out options one after the other. -/
def performAll (flags : List (Switch σ)) (settings : σ) : Except Stop σ :=
  flags.foldlM (fun settings switch => perform switch "" settings) settings

/-- Takes an option from the front of the tokens `later` that follow it. -/
def takeOption (interface : Interface σ) (switch : Switch σ) (spelling : String)
    (attached : Option (List Char)) (later : List (String × Token σ)) (state : State σ) :
    Except Stop (State σ × { rest : List (String × Token σ) // rest.length ≤ later.length }) := do
  let found ← (interface.clusterOf switch spelling attached).mapError .usage
  match found.value with
  | some value =>
    let settings ← performAll found.flags state.settings
    let settings ← perform found.last value settings
    return ({ state with settings }, ⟨later, Nat.le_refl _⟩)
  | none =>
    match h : valueFor found.last later with
    | .error error => .error (.usage error)
    | .ok (value, rest) =>
      let settings ← performAll found.flags state.settings
      let settings ← perform found.last value settings
      return ({ state with settings }, ⟨rest, length_of_valueFor h⟩)

/-- How many arguments of a run without options the operand takes. -/
def operandCount (interface : Interface σ) (run : List (String × Token σ)) : Nat :=
  let isSeparator (entry : String × Token σ) : Bool := entry.2.isSeparator
  match run.dropWhile isSeparator with
  | [] => 0
  | _ :: later =>
    if interface.repeated then run.length
    else (run.takeWhile isSeparator).length + 1 + (later.takeWhile isSeparator).length

/-- Takes a run of arguments without options. The first double dash among the operands is not one
of them. -/
def takeRun (interface : Interface σ) (run : List (String × Token σ)) (state : State σ) :
    State σ :=
  let count := if state.supplied then 0 else interface.operandCount run
  let texts := run.map Prod.fst
  let extras := state.extras ++ texts.drop count
  if count = 0 then { state with extras }
  else
    { settings := interface.store ((texts.take count).erase "--") state.settings
      supplied := true
      extras }

/-- Reads classified arguments from left to right. -/
def read (interface : Interface σ) (tokens : List (String × Token σ)) (state : State σ) :
    Except Stop (State σ) :=
  match tokens with
  | [] => .ok state
  | (_, .switch switch spelling attached) :: later =>
    match interface.takeOption switch spelling attached later state with
    | .error stop => .error stop
    | .ok (state, ⟨rest, _⟩) => interface.read rest state
  | (argument, .unknown) :: later =>
    interface.read later { state with extras := state.extras ++ [argument] }
  | first :: later =>
    let isPlain (entry : String × Token σ) : Bool := !entry.2.isOption
    interface.read (later.dropWhile isPlain)
      (interface.takeRun (first :: later.takeWhile isPlain) state)
termination_by tokens.length
decreasing_by
  · simp only [List.length_cons]; omega
  · simp
  · have := (List.dropWhile_suffix (l := later) (fun entry => !entry.2.isOption)).length_le
    simp only [List.length_cons]
    omega

/-- The settings that arguments describe, from the settings without any. -/
def parse (interface : Interface σ) (initial : σ) (arguments : List String) : Except Stop σ := do
  let tokens ← (interface.classify arguments).mapError .usage
  let state ← interface.read tokens ⟨initial, false, []⟩
  if !state.supplied then .error (.usage (.missingOperand interface.operand))
  else if !state.extras.isEmpty then .error (.usage (.unrecognized state.extras))
  else .ok state.settings

end Interface

end TemplateLint.CommandLine
