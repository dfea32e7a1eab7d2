import FeatureRunner.Calendar.Reader
import FeatureRunner.Text.Quoted

/-!
What can go wrong, as causes: every fault has a kind, by which it is handled and reported, and one
message. Kinds form a tree whose root is the plain exception.
-/

namespace FeatureRunner
open FeatureRunner.Text

/-- The kinds of fault. -/
inductive ErrorKind
  | exception
  | value
  | runtime
  | key
  | assertion
  | type
  | member
  | invalidState
  | parse
  | yaml
  | json
  | framework
  | configuration
  | patternCompile
  | noMatch
  | featureCompile
  | execution
  | helperNotFound
  | directory
  | index
  deriving DecidableEq, Repr

namespace ErrorKind

def all : List ErrorKind :=
  [exception, value, runtime, key, assertion, type, member, invalidState, parse, yaml, json,
   framework, configuration, patternCompile, noMatch, featureCompile, execution, helperNotFound,
   directory, index]

/-- The name under which a kind is published. -/
def name : ErrorKind → String
  | exception => "Exception"
  | value => "ValueError"
  | runtime => "RuntimeError"
  | key => "KeyError"
  | assertion => "AssertionError"
  | type => "TypeError"
  | member => "AttributeError"
  | invalidState => "InvalidStateError"
  | parse => "ParserError"
  | yaml => "YAMLError"
  | json => "JSONDecodeError"
  | framework => "BDDCoreError"
  | configuration => "ConfigurationError"
  | patternCompile => "PatternCompileError"
  | noMatch => "NoMatchError"
  | featureCompile => "FeatureCompileError"
  | execution => "ExecutionError"
  | helperNotFound => "HelperNotFoundError"
  | directory => "IsADirectoryError"
  | index => "IndexError"

def ofName? (name : String) : Option ErrorKind :=
  all.find? (·.name == name)

/-- The kind that a kind is a special case of. -/
def parent? : ErrorKind → Option ErrorKind
  | exception => none
  | patternCompile => some configuration
  | helperNotFound => some execution
  | configuration | noMatch | featureCompile | execution => some framework
  | _ => some exception

/-- A kind and the kinds above it, at most `depth` of them. -/
def lineageFrom : Nat → ErrorKind → List ErrorKind
  | 0, kind => [kind]
  | depth + 1, kind =>
    match kind.parent? with
    | some above => kind :: lineageFrom depth above
    | none => [kind]

/-- A kind and all kinds above it, up to the plain exception. -/
def lineage (kind : ErrorKind) : List ErrorKind :=
  lineageFrom 3 kind

/-- Whether a kind is one of this library's own. -/
def isFramework (kind : ErrorKind) : Bool :=
  kind.lineage.contains framework

end ErrorKind

/-- Where and why a feature text does not parse. -/
structure ParseFault where
  file : Option String
  problem : String
  line : Nat
  /-- The text of the line, where the message quotes it. -/
  quotedLine : Option String
  reason : Option String
  deriving DecidableEq, Repr

/-- What went wrong. -/
inductive Fault
  /-- Raised by a scripted callable, with or without a message. -/
  | raised (kind : ErrorKind) (message : Option String)
  | unsupportedPlaceholder (kind pattern : String)
  | notAnAmount (kind pattern : String)
  /-- Something other than a text or regular expression was given as a step pattern. -/
  | notAPattern (typeName : String)
  /-- A text that is no regular expression. -/
  | regexForm (source : String)
  /-- An unknown white space policy, shown as it stands in messages. -/
  | whitespacePolicy (shown : String)
  /-- The same in a configuration file. -/
  | whitespaceSetting (shown : String)
  | configFormat (suffix : String)
  | configShape (path : String)
  | helperWithoutClass (helper : String)
  | helperClassPath (path : String)
  | helperModule (path reason : String)
  | helperClass (member path : String)
  | noMatch (text : String)
  /-- A text that holds no feature, by the name of its source. -/
  | noFeature (source : String)
  | helperNotFound (action : String)
  | stepsNotFound (path : String)
  /-- A directory where a file is to be read. -/
  | isDirectory (path : String)
  | unknownLanguage (language : String)
  | parse (fault : ParseFault)
  /-- A numeral with more digits than are read. -/
  | digitLimit (count : Nat)
  /-- A number with more digits than are written. -/
  | tooLongToWrite
  | tableShape
  | noRunningLoop
  | resultNotSet
  | reportFormat (format : String)
  /-- A test or step is asked for by a number that none has. -/
  | outOfRange
  | moment (source : String) (error : Calendar.MomentError)
  /-- A callable was given too few arguments. -/
  | missingArguments (callable : String) (keywordOnly : Bool) (names : List String)
  /-- A callable was given too many arguments; those from `least` on are optional. -/
  | surplusArguments (callable : String) (least most given : Nat)
  /-- A value of a type that does not allow what is done with it. -/
  | misuse (text : String)
  /-- A value without the member that is asked for. -/
  | missingMember (typeName member : String)
  /-- A member whose name marks it as private. -/
  | privateName (name : String)
  | malformedYaml
  | malformedJson
  deriving DecidableEq, Repr

/-- Why a computation ended without a value: a fault, or it was cancelled, which no handler of
faults sees. -/
inductive Failure
  | fault (fault : Fault)
  | cancelled
  deriving DecidableEq, Repr

namespace Fault

def kind : Fault → ErrorKind
  | raised kind _ => kind
  | unsupportedPlaceholder .. | notAnAmount .. | notAPattern _ | whitespacePolicy _ =>
    .patternCompile
  | whitespaceSetting _ | configFormat _ | configShape _ | helperWithoutClass _
  | helperClassPath _ | helperModule .. | helperClass .. => .configuration
  | noMatch _ => .noMatch
  | noFeature _ => .featureCompile
  | helperNotFound _ => .helperNotFound
  | stepsNotFound _ | regexForm _ => .exception
  | unknownLanguage _ => .key
  | isDirectory _ => .directory
  | outOfRange => .index
  | parse _ => .parse
  | digitLimit _ | tooLongToWrite | tableShape | reportFormat _ | moment .. => .value
  | noRunningLoop => .runtime
  | resultNotSet => .invalidState
  | missingArguments .. | surplusArguments .. | misuse _ => .type
  | missingMember .. | privateName _ => .member
  | malformedYaml => .yaml
  | malformedJson => .json

/-- Names in quotes joined as in a sentence. -/
def enumerate : List String → String
  | [] => ""
  | [one] => "'" ++ one ++ "'"
  | [first, second] => "'" ++ first ++ "' and '" ++ second ++ "'"
  | names =>
    let shown := names.map fun name => "'" ++ name ++ "'"
    ", ".intercalate shown.dropLast ++ ", and " ++ shown.getLastD ""

/-- A span of microseconds by days, seconds and microseconds, of which only days go below zero. -/
def spanText (microseconds : Int) : String :=
  let days := microseconds.fdiv Calendar.dayLength
  let rest := (microseconds.fmod Calendar.dayLength).toNat
  let parts := (if days == 0 then [] else ["days=" ++ toString days]) ++
    (if rest / 1000000 == 0 then [] else ["seconds=" ++ toString (rest / 1000000)]) ++
    (if rest % 1000000 == 0 then [] else ["microseconds=" ++ toString (rest % 1000000)])
  "datetime.timedelta(" ++ (if parts.isEmpty then "0" else ", ".intercalate parts) ++ ")"

def momentText (source : String) : Calendar.MomentError → String
  | .form => "Invalid isoformat string: " ++ quoted source
  | .year value => "year " ++ toString value ++ " is out of range"
  | .month => "month must be in 1..12"
  | .day => "day is out of range for month"
  | .hour => "hour must be in 0..23"
  | .minute => "minute must be in 0..59"
  | .second => "second must be in 0..59"
  | .offset microseconds =>
    "offset must be a timedelta strictly between -timedelta(hours=24) and timedelta(hours=24), not " ++
      spanText microseconds ++ "."

def parseText (fault : ParseFault) : String :=
  let source := match fault.file with
    | some name => if name.isEmpty then "<string>" else "\"" ++ name ++ "\""
    | none => "<string>"
  "Failed to parse " ++ source ++ ": " ++ fault.problem ++ " at line " ++ toString fault.line ++
    (match fault.quotedLine with
      | some line => ": \"" ++ line ++ "\""
      | none => "") ++
    (match fault.reason with
      | some reason => "\nREASON: " ++ reason
      | none => "")

def noMatchText (text : String) : String :=
  "No step definition found for: " ++ text

def message : Fault → String
  | raised .key (some text) => quoted text
  | raised .noMatch text => noMatchText (text.getD "")
  | raised _ text => text.getD ""
  | unsupportedPlaceholder kind pattern =>
    "Unsupported placeholder \x7b" ++ kind ++ "\x7d in step pattern: " ++ pattern
  | notAnAmount kind pattern =>
    "Placeholder \x7b" ++ kind ++ "\x7d cannot be used as an amount in step pattern: " ++ pattern
  | notAPattern typeName => "Step pattern must be a string or compiled regex, got " ++ typeName
  | regexForm source => "malformed regular expression: " ++ source
  | whitespacePolicy shown => "Unsupported whitespace policy: " ++ shown
  | whitespaceSetting shown =>
    "Unsupported whitespace policy: " ++ shown ++ " (expected one of tolerant, strict)"
  | configFormat suffix => "Unsupported config format: " ++ suffix
  | configShape path => "Config file must contain a mapping: " ++ path
  | helperWithoutClass helper => "Helper '" ++ helper ++ "' config needs a 'class' entry"
  | helperClassPath path => "Invalid helper class path: " ++ path
  | helperModule path reason => "Cannot import helper module '" ++ path ++ "': " ++ reason
  | helperClass member path => "Helper class '" ++ member ++ "' not found in '" ++ path ++ "'"
  | noMatch text => noMatchText text
  | noFeature source => "No feature found in " ++ source
  | helperNotFound action => "No helper provides '" ++ action ++ "'"
  | stepsNotFound path => "Step definitions not found: " ++ path
  | unknownLanguage language => quoted language
  | isDirectory path => "[Errno 21] Is a directory: " ++ quoted path
  | parse fault => parseText fault
  | digitLimit count =>
    "Exceeds the limit (4300 digits) for integer string conversion: value has " ++ toString count ++
      " digits; use sys.set_int_max_str_digits() to increase the limit"
  | tooLongToWrite =>
    "Exceeds the limit (4300 digits) for integer string conversion; " ++
      "use sys.set_int_max_str_digits() to increase the limit"
  | tableShape => "rows_hash() needs a table with exactly two columns"
  | noRunningLoop => "no running event loop"
  | resultNotSet => "Result is not set."
  | reportFormat format => "Unsupported report format: " ++ format
  | outOfRange => "list index out of range"
  | moment source error => momentText source error
  | missingArguments callable keywordOnly names =>
    callable ++ "() missing " ++ toString names.length ++ " required " ++
      (if keywordOnly then "keyword-only" else "positional") ++ " argument" ++
      (if names.length == 1 then "" else "s") ++ ": " ++ enumerate names
  | surplusArguments callable least most given =>
    let accepted := if least == most then toString most
      else "from " ++ toString least ++ " to " ++ toString most
    callable ++ "() takes " ++ accepted ++ " positional argument" ++
      (if least == 1 && most == 1 then "" else "s") ++ " but " ++ toString given ++
      (if given == 1 then " was given" else " were given")
  | misuse text => text
  | missingMember typeName member =>
    "'" ++ typeName ++ "' object has no attribute '" ++ member ++ "'"
  | privateName name => name
  | malformedYaml => "malformed document"
  | malformedJson => "malformed document"

end Fault

end FeatureRunner
