import DocCite.Text.Split

/-!
# Arguments of a command

Options stand among the other arguments, in any order. An option has a name, written after two
hyphens, and may have a letter, written after one; its value follows it or is attached to it.
After two lone hyphens nothing is an option.
-/

namespace DocCite

/-- An option that a command knows. -/
inductive OptionForm
  /-- An option without value. -/
  | flag (name : String)
  | value (name : String) (letter : Option Char)
  deriving DecidableEq, Repr

/-- The name of an option. -/
def OptionForm.name : OptionForm → String
  | flag name => name
  | value name _ => name

/-- The arguments of a command, told apart. -/
structure Arguments where
  /-- The options with their values, in order; those without value have an empty one. -/
  options : List (String × String) := []
  others : List String := []
  deriving DecidableEq, Repr

namespace Arguments

/-- Whether an argument can only be an option. -/
def looksLikeOption (arg : String) : Bool :=
  match arg.toList with
  | '-' :: _ :: _ => true
  | _ => false

/-- What a single argument is. -/
inductive Role
  | other
  /-- From here on nothing is an option. -/
  | endOfOptions
  | option (name value : String)
  /-- An option whose value is the next argument. -/
  | awaitsValue (name : String)
  | unknown
  deriving DecidableEq, Repr

/-- The part of an argument before the first equals sign, and the attached value after it. -/
def attached (body : List Char) : List Char × Option String :=
  match body.dropWhile (· ≠ '=') with
  | [] => (body, none)
  | _ :: value => (body.takeWhile (· ≠ '='), some (String.ofList value))

/-- The role of an argument after two hyphens. -/
def roleOfName (forms : List OptionForm) (body : List Char) : Role :=
  let (name, value) := attached body
  match forms.find? fun f => f.name = String.ofList name, value with
  | some (.flag name), none => .option name ""
  | some (.value name _), none => .awaitsValue name
  | some (.value name _), some value => .option name value
  | _, _ => .unknown

/-- The role of an argument after one hyphen; an equals sign before the value does not belong to
it. -/
def roleOfLetter (forms : List OptionForm) (letter : Char) (rest : List Char) : Role :=
  let isIt : OptionForm → Bool := fun
    | .value _ (some l) => l == letter
    | _ => false
  match forms.find? isIt, rest with
  | some form, [] => .awaitsValue form.name
  | some form, '=' :: value => .option form.name (String.ofList value)
  | some form, value => .option form.name (String.ofList value)
  | none, _ => .unknown

/-- The role of an argument. -/
def role (forms : List OptionForm) (arg : String) : Role :=
  match arg.toList with
  | ['-', '-'] => .endOfOptions
  | '-' :: '-' :: body => roleOfName forms body
  | '-' :: letter :: rest => roleOfLetter forms letter rest
  | _ => .other

/-- One more option before the rest. -/
def withOption (name value : String) (a : Arguments) : Arguments :=
  { a with options := (name, value) :: a.options }

/-- One more argument before the rest. -/
def withOther (arg : String) (a : Arguments) : Arguments := { a with others := arg :: a.others }

/-- Tells arguments apart; none if one of them is no option of the command or lacks its value. -/
def read? (forms : List OptionForm) : List String → Option Arguments
  | [] => some {}
  | arg :: rest =>
    match role forms arg with
    | .other => (read? forms rest).map (withOther arg)
    | .endOfOptions => some { others := rest }
    | .option name value => (read? forms rest).map (withOption name value)
    | .awaitsValue name =>
      match rest with
      | [] => none
      | value :: rest =>
        if looksLikeOption value then none else (read? forms rest).map (withOption name value)
    | .unknown => none

/-- The values of an option, in order. -/
def values (a : Arguments) (name : String) : List String :=
  (a.options.filter fun o => o.1 = name).map Prod.snd

/-- The value of an option that may be given once; none if it is given more often. -/
def atMostOne? (a : Arguments) (name : String) : Option (Option String) :=
  match a.values name with
  | [] => some none
  | [value] => some (some value)
  | _ => none

/-- The value of an option that has to be given once. -/
def one? (a : Arguments) (name : String) : Option String := (a.atMostOne? name).join

/-- Whether an option without value is given; none if it is given more than once. -/
def isGiven? (a : Arguments) (name : String) : Option Bool :=
  (a.atMostOne? name).map Option.isSome

end Arguments

end DocCite
