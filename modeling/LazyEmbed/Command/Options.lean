import LazyEmbed.Text.Basic
import LazyEmbed.Text.Digit

/-!
The options of a command line. An option may be cut short as long as only one known option begins
so, and its value follows it or is attached with an equals sign. Everything after two lone hyphens
is no option. A command takes options only, so whatever else is found is refused; but a request for
help is heard before that, if nothing in front of it is wrong with an option.
-/

namespace LazyEmbed.Command

inductive OptionKind where
  /-- It says all by itself. -/
  | flag
  /-- It has a value. -/
  | valued
  | help
  deriving Repr, DecidableEq

structure KnownOption where
  name : Text
  kind : OptionKind

inductive Argument where
  /-- No option: it may be the value of one. -/
  | plain (text : Text)
  | option (name : Text) (kind : OptionKind) (attached : Option Text)
  /-- An option that is not known. -/
  | unknown
  /-- The beginning of several options. -/
  | ambiguous
  deriving DecidableEq

inductive Refusal where
  | help
  | invalid
  /-- The value of an option is two lone hyphens, which are no value. -/
  | noValue
  deriving Repr, DecidableEq

def Refusal.exitCode : Refusal → Nat
  | help => 0
  | invalid => 2
  | noValue => 1

namespace Argument

def helpName : Text := "--help"

def withHelp (known : List KnownOption) : List KnownOption := ⟨helpName, .help⟩ :: known

def splitEquals (text : Text) : Text × Option Text :=
  match text.dropWhile (· ≠ '=') with
  | _ :: value => (text.takeWhile (· ≠ '='), some value)
  | [] => (text, none)

def dropLineEnd (text : Text) : Text := if text.getLast? = some '\n' then text.dropLast else text

/-- The text behind a hyphen is a number, perhaps with a point in it and a line end behind it; so
both together are a negative number, which is no option. -/
def isNumber (text : Text) : Bool :=
  let text := dropLineEnd text
  let whole := text.takeWhile Text.isDecimal
  match text.dropWhile Text.isDecimal with
  | [] => !whole.isEmpty
  | '.' :: digits => !digits.isEmpty && digits.all Text.isDecimal
  | _ => false

/-- The text behind the short option for help: more of the same letter asks for the same. -/
def ofShortHelp (behind : Text) : Argument :=
  let more := match behind with
    | '=' :: h :: more => h :: more
    | _ => behind
  .option helpName .help (if more.all (· = 'h') then none else some more)

def ofLong (known : List KnownOption) (text : Text) : Argument :=
  let (name, attached) := splitEquals text
  let unmatched := if ' ' ∈ text then plain text else unknown
  match known.find? (·.name = name), known.filter (name.isPrefixOf ·.name) with
  | some found, _ => .option found.name found.kind attached
  | none, [found] => .option found.name found.kind attached
  | none, [] => unmatched
  | none, _ => ambiguous

def ofText (known : List KnownOption) (text : Text) : Argument :=
  match text with
  | '-' :: '-' :: _ => ofLong (withHelp known) text
  | '-' :: 'h' :: behind => ofShortHelp behind
  | '-' :: behind =>
    if behind = [] || isNumber behind || ' ' ∈ behind then plain text else unknown
  | text => plain text

def divider : Text := "--"

def ofTexts (known : List KnownOption) (arguments : List Text) : List Argument :=
  let isDivider (text : Text) : Bool := text = divider
  let options := (arguments.takeWhile (!isDivider ·)).map (ofText known)
  match arguments.dropWhile (!isDivider ·) with
  | [] => options
  | _ :: others => options ++ .unknown :: others.map .plain

end Argument

/-- The options given, with their values; a flag has an empty one. -/
abbrev Given := List (Text × Text)

/-- The options in arguments, where `stray` tells that there was something else before. -/
def optionsFrom (stray : Bool) : List Argument → Except Refusal Given
  | [] => if stray then .error .invalid else .ok []
  | .plain _ :: rest => optionsFrom true rest
  | .unknown :: rest => optionsFrom true rest
  | .ambiguous :: _ => .error .invalid
  | .option _ .help none :: _ => .error .help
  | .option name .flag none :: rest => (optionsFrom stray rest).map ((name, []) :: ·)
  | .option name .valued (some value) :: rest =>
    (optionsFrom stray rest).map ((name, value) :: ·)
  | .option name .valued none :: .plain value :: rest =>
    (optionsFrom stray rest).map ((name, value) :: ·)
  | .option _ _ _ :: _ => .error .invalid

def readOptions (known : List KnownOption) (arguments : List Text) : Except Refusal Given :=
  let arguments := Argument.ofTexts known arguments
  if .ambiguous ∈ arguments then .error .invalid else optionsFrom false arguments

namespace Given

def isSet (given : Given) (name : Text) : Bool := given.any (·.1 = name)

/-- The value of an option: the last one given, or else the default. What divides arguments is no
value, even if it is attached to the option. -/
def value (given : Given) (name default : Text) : Except Refusal Text :=
  let text := (given.reverse.lookup name).getD default
  if text = Argument.divider then .error .noValue else .ok text

end Given

end LazyEmbed.Command
