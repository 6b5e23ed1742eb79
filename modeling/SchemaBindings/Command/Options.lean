import SchemaBindings.Text.Cut

/-! The arguments of the command line. They are read from left to right, and the first one that is
wrong, or that asks for the version or for help, decides. -/

namespace SchemaBindings.Command

/-- An option that takes a value. -/
inductive Setting
  | rootName | javaOut | javaPackage | rustOut | goOut | goPackage | typescriptOut | format
  deriving DecidableEq, Repr

/-- How a run is summed up. -/
inductive Format
  | pretty | minimal | json
  deriving DecidableEq, Repr

namespace Format

def all : List Format := [pretty, minimal, json]

def name : Format → String
  | pretty => "pretty"
  | minimal => "minimal"
  | json => "json"

def ofName? (name : String) : Option Format := all.find? (·.name == name)

end Format

namespace Setting

def all : List Setting :=
  [rootName, javaOut, javaPackage, rustOut, goOut, goPackage, typescriptOut, format]

def flag : Setting → String
  | rootName => "--root-name"
  | javaOut => "--java-jackson-out"
  | javaPackage => "--java-jackson-package"
  | rustOut => "--rust-out"
  | goOut => "--go-out"
  | goPackage => "--go-package"
  | typescriptOut => "--typescript-out"
  | format => "--log-format"

def ofFlag? (flag : String) : Option Setting := all.find? (·.flag == flag)

/-- A directory has a path that is not empty, and a format has a name; any other text will do. -/
def admits : Setting → String → Bool
  | rootName, _ => true
  | javaPackage, _ => true
  | goPackage, _ => true
  | format, value => (Format.ofName? value).isSome
  | _, value => !value.isEmpty

end Setting

/-- What the arguments so far have set. -/
structure Options where
  input : Option String
  values : List (Setting × String)
  verbose : Bool
  deriving Repr

namespace Options

def none : Options := ⟨Option.none, [], false⟩

def value? (o : Options) (setting : Setting) : Option String := o.values.lookup setting

/-- Sets an option, at most once. -/
def set? (o : Options) (setting : Setting) (value : String) : Option Options :=
  if (o.value? setting).isNone && setting.admits value then
    some { o with values := (setting, value) :: o.values }
  else Option.none

def setVerbose? (o : Options) : Option Options :=
  if o.verbose then Option.none else some { o with verbose := true }

/-- There is one input. -/
def setInput? (o : Options) (path : String) : Option Options :=
  if o.input.isNone && !path.isEmpty then some { o with input := some path } else Option.none

def format (o : Options) : Format := ((o.value? .format).bind Format.ofName?).getD .pretty

end Options

/-- What the arguments ask for. -/
inductive Request
  | run (input : String) (options : Options)
  | version
  | help
  | misuse
  deriving Repr

def finish (o : Options) : Request :=
  match o.input with
  | some input => .run input o
  | none => .misuse

/-- After a double hyphen no argument is an option. -/
def readInputs (o : Options) : List String → Request
  | [] => finish o
  | arg :: rest =>
    match o.setInput? arg with
    | some o => readInputs o rest
    | none => .misuse

/-- A hyphen alone is no option. -/
def looksLikeOption (arg : String) : Bool := "-".isPrefixOf arg && arg ≠ "-"

/-- A long option up to its first equals sign, and the value behind it. -/
def splitAtEquals : List Char → List Char × Option (List Char)
  | [] => ([], none)
  | '=' :: rest => ([], some rest)
  | c :: rest => (c :: (splitAtEquals rest).1, (splitAtEquals rest).2)

/-- Reads the letters of short options that stand together: either they ask for something at once,
or options are left to go on with. -/
def readLetters (o : Options) : List Char → Except Request Options
  | [] => .ok o
  | 'v' :: rest =>
    match o.setVerbose? with
    | some o => readLetters o rest
    | none => .error .misuse
  | 'V' :: _ => .error .version
  | 'h' :: _ => .error .help
  | _ => .error .misuse

/-- Reads a long option. The value of a setting stands behind an equals sign, or it is the next
argument; the flag says that the next argument is used up. -/
def readLong (o : Options) (flag : String) (attached : Option String) (next : Option String) :
    Except Request (Options × Bool) :=
  match Setting.ofFlag? flag, attached with
  | some setting, some value =>
    match o.set? setting value with
    | some o => .ok (o, false)
    | none => .error .misuse
  | some setting, none =>
    match next with
    | some value =>
      if looksLikeOption value then .error .misuse
      else
        match o.set? setting value with
        | some o => .ok (o, true)
        | none => .error .misuse
    | none => .error .misuse
  | none, none =>
    if flag = "--verbose" then
      match o.setVerbose? with
      | some o => .ok (o, false)
      | none => .error .misuse
    else if flag = "--version" then .error .version
    else if flag = "--help" then .error .help
    else .error .misuse
  | none, some _ => .error .misuse

def readArguments (o : Options) : List String → Request
  | [] => finish o
  | arg :: rest =>
    if arg = "--" then readInputs o rest
    else if "--".isPrefixOf arg then
      let (flag, attached) := splitAtEquals arg.toList
      match readLong o (String.ofList flag) (attached.map String.ofList) rest.head? with
      | .error request => request
      | .ok (o, false) => readArguments o rest
      | .ok (o, true) => readArguments o rest.tail
    else if looksLikeOption arg then
      match readLetters o arg.toList.tail with
      | .error request => request
      | .ok o => readArguments o rest
    else
      match o.setInput? arg with
      | some o => readArguments o rest
      | none => .misuse
termination_by args => args.length
decreasing_by all_goals simp only [List.length_cons, List.length_tail]; omega

def Request.ofArguments (args : List String) : Request := readArguments .none args

end SchemaBindings.Command
