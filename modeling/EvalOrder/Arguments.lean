import EvalOrder.Text.Class
import EvalOrder.Text.Quoted

/-!
# Command-line arguments

`parse` is `get_parser().parse_args`. The program takes one operand, the input, and a few options. An option may be
shortened as long as it begins like no other; one that takes a value is followed by it, or has it after an equals sign.
`--` ends the options, and is no value either. What looks like an option but is a lone hyphen, a negative number, or
holds a space, is an operand.

Arguments are first classified one by one (`classifyAll`), then consumed from left to right (`consume`): the first
operand is the input, and operands after it and options that do not exist are left over, which is an error at the end.

The rules are those of `argparse` before its releases 3.11.9 and 3.12.3, for the options that there are here. From those
releases on `--config=--` gives the value `--`; here it gives an empty list in place of a path (`valueOf`). Left out are
the options of `add_argument` that `get_parser` does not use. The help is laid out for 80 columns.
-/

namespace EvalOrder

/-- The options. -/
inductive OptionKind where
  | help
  | config
  | logFile
  | showCycle
  | verbose
  deriving DecidableEq, Repr

namespace OptionKind

/-- The spellings of the options, in the order in which they are listed. -/
def spellings : List (String × OptionKind) :=
  [("-h", help), ("--help", help), ("--config", config), ("--log-file", logFile),
    ("--show-cycle", showCycle), ("--verbose", verbose)]

/-- How messages name the option: all its spellings. -/
def describe (o : OptionKind) : String :=
  "/".intercalate ((spellings.filter (·.2 = o)).map (·.1))

end OptionKind

/-- The value of an option: a text, or none where the separator is written for it. -/
abbrev OptionValue := Option String

/-- What the arguments ask for. -/
structure Arguments where
  input : Option String := none
  config : Option OptionValue := none
  logFile : Option OptionValue := none
  showCycle : Bool := false
  verbose : Bool := false
  deriving DecidableEq, Repr

/-- Why arguments cannot be understood. -/
inductive UsageError where
  | ambiguous (argument : String) (candidates : List String)
  | expectedValue (o : OptionKind)
  | ignoredValue (o : OptionKind) (value : String)
  | unrecognized (arguments : List String)
  deriving DecidableEq, Repr

def UsageError.message : UsageError → String
  | ambiguous argument candidates =>
    s!"ambiguous option: {argument} could match " ++ ", ".intercalate candidates
  | expectedValue o => s!"argument {o.describe}: expected one argument"
  | ignoredValue o value => s!"argument {o.describe}: ignored explicit argument {Text.quoted value}"
  | unrecognized arguments => "unrecognized arguments: " ++ " ".intercalate arguments

/-- An argument by itself. `short` marks an option that is spelled with a single hyphen. -/
inductive Argument where
  | operand (text : String)
  | option (o : OptionKind) (short : Bool) (value : Option String)
  | unknown (text : String)
  | separator
  deriving DecidableEq, Repr

/-- What a command line asks for. -/
inductive Request where
  | help
  | run (arguments : Arguments)
  deriving DecidableEq, Repr

namespace Argument

/-- A negative number: digits, or digits around a point after which there are some. -/
def isNegativeNumber : List Char → Bool
  | '-' :: cs =>
    let cs := if cs.getLast? = some '\n' then cs.dropLast else cs
    let whole := cs.takeWhile Text.isDigit
    match cs.dropWhile Text.isDigit with
    | [] => !whole.isEmpty
    | '.' :: part => !part.isEmpty && part.all Text.isDigit
    | _ => false
  | _ => false

/-- The two sides of the first equals sign, if there is one. -/
def splitValue (cs : List Char) : Option (String × String) :=
  match cs.dropWhile (· ≠ '=') with
  | [] => none
  | _ :: value => some (String.ofList (cs.takeWhile (· ≠ '=')), String.ofList value)

/-- The options that an argument may be short for, with their spellings and the value it gives. -/
def candidates (text : String) : List (String × OptionKind × Bool × Option String) :=
  let cs := text.toList
  if cs.take 2 = ['-', '-'] then
    let (name, value) := match splitValue cs with
      | some (name, value) => (name, some value)
      | none => (text, none)
    (OptionKind.spellings.filter fun e => name.toList.isPrefixOf e.1.toList).map fun e =>
      (e.1, e.2, false, value)
  else
    OptionKind.spellings.filterMap fun e =>
      if e.1 = String.ofList (cs.take 2) then
        some (e.1, e.2, true, some (String.ofList (cs.drop 2)))
      else if cs.isPrefixOf e.1.toList then some (e.1, e.2, true, none)
      else none

/-- An argument before any separator. -/
def classify (text : String) : Except UsageError Argument :=
  let cs := text.toList
  let exact (name : String) (value : Option String) : Option Argument :=
    (OptionKind.spellings.lookup name).map fun o => option o (name.toList.take 2 ≠ ['-', '-']) value
  if cs.head? ≠ some '-' then .ok (operand text)
  else match exact text none with
    | some a => .ok a
    | none =>
      if cs.length = 1 then .ok (operand text)
      else match (splitValue cs).bind fun e => exact e.1 (some e.2) with
        | some a => .ok a
        | none => match candidates text with
          | [(_, o, short, value)] => .ok (option o short value)
          | [] =>
            if isNegativeNumber cs || cs.contains ' ' then .ok (operand text) else .ok (unknown text)
          | several => .error (.ambiguous text (several.map (·.1)))

/-- Arguments one by one; after a separator all are operands. -/
def classifyAll : List String → Except UsageError (List Argument)
  | [] => .ok []
  | text :: more =>
    if text = "--" then .ok (separator :: more.map operand)
    else do
      let a ← classify text
      return a :: (← classifyAll more)

/-- Options that are written together after a single hyphen: all of them have to be calls for help. This is how
`argparse` reads them before 3.11.9 and 3.12.3. -/
def helpCluster (value : String) : Except UsageError Request :=
  match value.toList.dropWhile (· = 'h') with
  | [] => if value = "" then .error (.ignoredValue .help value) else .ok .help
  | rest => .error (.ignoredValue .help (String.ofList rest))

/-- The value of an option from the text that is written for it. The separator is dropped from it, also behind an
equals sign, as in `argparse` before 3.11.9 and 3.12.3. -/
def valueOf (text : String) : OptionValue := if text = "--" then none else some text

/-- Consume arguments from left to right; `taken` says that the input has been given, and `left` holds what is left
over. -/
def consume (a : Arguments) (taken : Bool) (left : List String) :
    List Argument → Except UsageError Request
  | [] => if left = [] then .ok (.run a) else .error (.unrecognized left)
  | operand text :: more =>
    if taken then consume a taken (left ++ [text]) more
    else
      let a := { a with input := some text }
      match more with
      | separator :: more => consume a true left more
      | more => consume a true left more
  | separator :: more =>
    if taken then consume a taken (left ++ ["--"]) more else consume a taken left more
  | unknown text :: more => consume a taken (left ++ [text]) more
  | option .help short (some value) :: _ =>
    if short then helpCluster value else .error (.ignoredValue .help value)
  | option .help _ none :: _ => .ok .help
  | option .config _ (some value) :: more => consume { a with config := some (valueOf value) } taken left more
  | option .logFile _ (some value) :: more => consume { a with logFile := some (valueOf value) } taken left more
  | option .config _ none :: operand value :: more =>
    consume { a with config := some (valueOf value) } taken left more
  | option .logFile _ none :: operand value :: more =>
    consume { a with logFile := some (valueOf value) } taken left more
  | option .showCycle _ none :: more => consume { a with showCycle := true } taken left more
  | option .verbose _ none :: more => consume { a with verbose := true } taken left more
  | option o _ (some value) :: _ => .error (.ignoredValue o value)
  | option o _ none :: _ => .error (.expectedValue o)

end Argument

namespace Arguments

/-- What a command line asks for. -/
def parse (arguments : List String) : Except UsageError Request := do
  Argument.consume {} false [] (← Argument.classifyAll arguments)

/-! ## Help -/

def usage : String :=
  "usage: formula_order.py [-h] [--config CONFIG] [--log-file LOG_FILE]\n" ++
  "                        [--show-cycle] [--verbose]\n" ++
  "                        [input]\n"

def helpText : String :=
  usage ++
  "\nPrint formula declarations in dependency order.\n" ++
  "\npositional arguments:\n" ++
  "  input                File with one declaration per line (default: standard\n" ++
  "                       input).\n" ++
  "\noptions:\n" ++
  "  -h, --help           show this help message and exit\n" ++
  "  --config CONFIG      Path to a YAML configuration file.\n" ++
  "  --log-file LOG_FILE  Also write log records to this file.\n" ++
  "  --show-cycle         Log the chain of formulas forming a cycle.\n" ++
  "  --verbose            Enable DEBUG logging.\n"

/-- What is printed about arguments that cannot be understood. -/
def complain (e : UsageError) : String :=
  usage ++ s!"formula_order.py: error: {e.message}\n"

end Arguments

end EvalOrder
