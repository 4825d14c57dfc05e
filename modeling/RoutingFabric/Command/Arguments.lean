/-!
# Arguments of a command

A command takes a number of positional arguments, and options whose names start with two dashes.
An option is either a flag or has a value, which is the next argument or follows an equals sign.
A value that is an argument of its own does not start with a dash, unless it is nothing but a
dash. After two dashes alone, all arguments are positional.
-/

namespace RoutingFabric.Command

/-- Kind of an option. -/
inductive OptionKind where
  | flag
  /-- an option with a value, given at most once -/
  | single
  /-- an option with a value, given any number of times -/
  | repeated
  deriving DecidableEq

/-- What a command takes. -/
structure Grammar where
  positional : Nat
  options : List (String × OptionKind)

/-- Why arguments are not those of a command. -/
inductive Refusal where
  /-- help is asked for instead -/
  | help
  /-- the version is asked for instead -/
  | version
  /-- they do not fit -/
  | misuse
  deriving DecidableEq

/-- Arguments by what they are. A value may be missing where help is asked for further on. -/
structure Arguments where
  positional : List String := []
  flags : List String := []
  values : List (String × String) := []
  incomplete : Bool := false
  deriving DecidableEq

namespace Arguments

/-- The name and the value of an argument that starts with two dashes. -/
def long? (arg : String) : Option (String × Option String) :=
  match arg.toList with
  | '-' :: '-' :: rest =>
    let name := rest.takeWhile (· ≠ '=')
    match rest.drop name.length with
    | _ :: value => some (String.ofList name, some (String.ofList value))
    | [] => some (String.ofList name, none)
  | _ => none

/-- Whether an argument is not the value of an option in front of it. -/
def isOption (arg : String) : Bool :=
  match arg.toList with
  | '-' :: _ :: _ => true
  | _ => false

/-- Whether an argument asks for help by a letter. -/
def isShortHelp (arg : String) : Bool :=
  match arg.toList with
  | '-' :: 'h' :: _ => true
  | _ => false

/-- Whether an argument asks for the version by a letter. -/
def isShortVersion (arg : String) : Bool :=
  match arg.toList with
  | '-' :: 'V' :: _ => true
  | _ => false

/-- The arguments with those of a list more. -/
def scan (g : Grammar) : Arguments → List String → Except Refusal Arguments
  | a, [] => .ok a
  | a, arg :: rest =>
    if arg = "--" then .ok { a with positional := a.positional ++ rest }
    else
      match long? arg with
      | some (name, attached) =>
        if name = "help" && attached.isNone then .error .help
        else
          match g.options.lookup name, attached with
          | none, _ => .error .misuse
          | some .flag, some _ => .error .misuse
          | some .flag, none => scan g { a with flags := a.flags ++ [name] } rest
          | some _, some value => scan g { a with values := a.values ++ [(name, value)] } rest
          | some _, none =>
            match rest with
            | [] => .ok { a with incomplete := true }
            | value :: more =>
              if isOption value then scan g { a with incomplete := true } (value :: more)
              else scan g { a with values := a.values ++ [(name, value)] } more
      | none =>
        if isShortHelp arg then .error .help
        else if isOption arg then .error .misuse
        else if a.positional.length < g.positional then
          scan g { a with positional := a.positional ++ [arg] } rest
        else .error .misuse

/-- Whether nothing is missing, and nothing is given more often than it may be. -/
def fits (g : Grammar) (a : Arguments) : Bool :=
  !a.incomplete && a.positional.length = g.positional
    && g.options.all fun (name, kind) =>
      kind = .repeated || (a.flags ++ a.values.map (·.1)).count name ≤ 1

/-- The arguments of a command. -/
def ofList (g : Grammar) (args : List String) : Except Refusal Arguments := do
  let a ← scan g {} args
  if a.fits g then .ok a else .error .misuse

/-- Whether a flag is given. -/
def has (a : Arguments) (flag : String) : Bool := a.flags.contains flag

/-- The value of an option, if it is given. -/
def value? (a : Arguments) (option : String) : Option String := a.values.lookup option

/-- The values of an option. -/
def valuesOf (a : Arguments) (option : String) : List String :=
  (a.values.filter (·.1 = option)).map (·.2)

end Arguments

end RoutingFabric.Command
