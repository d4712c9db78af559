/-!
# Command lines

The arguments of the command line tool are parsed to one of its commands. Options come in two forms, with
their value behind them or behind an equals sign; two dashes end the options.
-/

namespace SealedImage

/-- What the command line tool can be told to do. -/
inductive Command
  | encrypt (input key output : String)
  | decrypt (input key output : String)
  | generateEccKey (directory : String) (seed : Option String)
  | generateRsaKey (directory : String)
  | inspect (input : String)
deriving DecidableEq

namespace Command

/-- The values of a command: plain ones in their order, and those of options by the name of the option. -/
structure Values where
  plain : List String
  options : List (String × String)

/-- An argument that stands for itself: a lone dash does, and what does not start with a dash. -/
def isPlain (argument : String) : Bool :=
  argument == "-" || !argument.startsWith "-"

/-- One more option, unless it is there already or its value is empty. -/
def Values.addOption? (v : Values) (name value : String) : Option Values :=
  if value.isEmpty ∨ (v.options.lookup name).isSome then none
  else some { v with options := v.options ++ [(name, value)] }

/-- One more plain value, unless it is empty. -/
def Values.addPlain? (v : Values) (value : String) : Option Values :=
  if value.isEmpty then none else some { v with plain := v.plain ++ [value] }

/-- The name and value of an option with an equals sign. -/
def splitOption (argument : String) : String × Option String :=
  let name := argument.toList.takeWhile (· != '=')
  match argument.toList.drop name.length with
  | [] => (argument, none)
  | _ :: value => (String.ofList name, some (String.ofList value))

/-- Collects the values of a command that has options of the given names. -/
def collect? (known : List String) : List String → Values → Option Values
  | [], v => some v
  | [argument], v =>
    if argument = "--" then some v
    else if isPlain argument then v.addPlain? argument
    else
      match splitOption argument with
      | (name, some value) => if known.contains name then v.addOption? name value else none
      | (_, none) => none
  | argument :: next :: rest, v =>
    if argument = "--" then (next :: rest).foldlM Values.addPlain? v
    else if isPlain argument then do collect? known (next :: rest) (← v.addPlain? argument)
    else
      match splitOption argument with
      | (name, some value) =>
        if known.contains name then do collect? known (next :: rest) (← v.addOption? name value)
        else none
      | (name, none) =>
        if known.contains name ∧ isPlain next then do collect? known rest (← v.addOption? name next)
        else none

/-- The option that names the directory of new keys. -/
def directoryOption : String := "--out-dir"

def seedOption : String := "--seed-file"

def ofName? (name : String) (arguments : List String) : Option Command :=
  match name with
  | "encrypt" => do
    match (← collect? [] arguments ⟨[], []⟩).plain with
    | [input, key, output] => some (encrypt input key output)
    | _ => none
  | "decrypt" => do
    match (← collect? [] arguments ⟨[], []⟩).plain with
    | [input, key, output] => some (decrypt input key output)
    | _ => none
  | "inspect" => do
    match (← collect? [] arguments ⟨[], []⟩).plain with
    | [input] => some (inspect input)
    | _ => none
  | "generate-ecc-key" => do
    let v ← collect? [directoryOption, seedOption] arguments ⟨[], []⟩
    if v.plain = [] then
      some (generateEccKey ((v.options.lookup directoryOption).getD ".") (v.options.lookup seedOption))
    else none
  | "generate-rsa-key" => do
    let v ← collect? [directoryOption] arguments ⟨[], []⟩
    if v.plain = [] then some (generateRsaKey ((v.options.lookup directoryOption).getD "."))
    else none
  | _ => none

/-- The command that the arguments of the tool are. -/
def parse? : List String → Option Command
  | [] => none
  | name :: arguments => ofName? name arguments

end Command

end SealedImage
