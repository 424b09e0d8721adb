import JavaMetrics.Fault
import JavaMetrics.Files.Tree
import JavaMetrics.Metrics.Record

/-!
# Failures

Every way in which an operation of the library can fail: with a fault, which the
program reports and survives, or with something that it does not expect, such as
a setting of the wrong type.
-/

namespace JavaMetrics

/-- How an operation can fail. -/
inductive Failure where
  /-- What the program reports by itself. -/
  | fault (fault : Fault)
  /-- Figures that do not make a record. -/
  | record (fault : Metrics.RecordFault)
  /-- The parser has a defect. -/
  | parserDefect (message : String)
  /-- The encoding cannot read the bytes of a file. -/
  | undecodable (message : String)
  /-- A setting that does not exist. -/
  | unknownSetting (key : String)
  /-- A number of workers that is no number. -/
  | incomparable (typeName : String)
  /-- An encoding that is not given by a name. -/
  | encodingNotText (typeName : String)
  /-- A null character in the name of an encoding. -/
  | nullInEncoding
  /-- An encoding in which nothing can be written. -/
  | unusableEncoding (message : String)
  /-- An encoding that nobody knows. -/
  | unknownEncoding (name : String)
  /-- Suffixes that are not given as a list. -/
  | notIterable (typeName : String)
  /-- A suffix that is no text. -/
  | suffixNotText (typeName : String)
  /-- A path that is no text. -/
  | notPath (typeName : String)
  /-- A request to the file tree that was refused. -/
  | refused (refusal : Files.Refusal) (path : String)
  /-- A text that does not write an integer. -/
  | notInteger (text : String)
  /-- An integer with too many digits. -/
  | tooManyDigits (digits : Nat)
  /-- An integer that is too long to be shown in a message. -/
  | longInteger
  /-- A text that is no truth value. -/
  | notBoolean (text : String)
  /-- A level of detail that does not exist. -/
  | unknownVerbosity (shown : String)
  /-- A count that does not fit into 64 bits. -/
  | countTooLarge
  /-- A mark-up tag that closes what was never opened. -/
  | strayClosingTag (tag : String) (position : Nat)
deriving Repr

namespace Failure

/-- The text of a refused request. -/
def refusalText (refusal : Files.Refusal) (path : String) : String :=
  match refusal.description? with
  | some (number, description) => s!"[Errno {number}] {description}: {Text.quoted path}"
  | none => "embedded null byte"

/-- What the failure says. -/
def message : Failure → String
  | fault f => f.text
  | record f => f.message
  | parserDefect message => message
  | undecodable message => message
  | unknownSetting key =>
    if key == "self" then "MetricsConfig.__init__() got multiple values for argument 'self'"
    else s!"MetricsConfig.__init__() got an unexpected keyword argument '{key}'"
  | incomparable typeName =>
    s!"'<' not supported between instances of '{typeName}' and 'int'"
  | encodingNotText typeName =>
    s!"encode() argument 'encoding' must be str, not {typeName}"
  | nullInEncoding => "embedded null character"
  | unusableEncoding message => message
  | unknownEncoding name => s!"unknown encoding: {name}"
  | notIterable typeName => s!"'{typeName}' object is not iterable"
  | suffixNotText typeName => s!"tuple for endswith must only contain str, not {typeName}"
  | notPath typeName => s!"expected str, bytes or os.PathLike object, not {typeName}"
  | refused refusal path => refusalText refusal path
  | notInteger text => s!"invalid literal for int() with base 10: {Text.quoted text}"
  | tooManyDigits digits =>
    s!"Exceeds the limit (4300 digits) for integer string conversion: value has {digits} digits; " ++
      "use sys.set_int_max_str_digits() to increase the limit"
  | longInteger =>
    "Exceeds the limit (4300 digits) for integer string conversion; " ++
      "use sys.set_int_max_str_digits() to increase the limit"
  | notBoolean text => s!"expected true/false, got '{text}'"
  | unknownVerbosity shown => shown
  | countTooLarge => "Python int too large to convert to C long"
  | strayClosingTag tag position =>
    if tag == "[/]" then s!"closing tag '[/]' at position {position} has nothing to close"
    else s!"closing tag '{tag}' at position {position} doesn't match any open tag"

/-- The failure of an operation on files whose refusals by the system are told as faults. What the
system was not asked for stays as it is. -/
def asFault (failure : Failure) (fault : String → Fault) : Failure :=
  match failure with
  | refused .nullInPath _ => failure
  | _ => .fault (fault failure.message)

end Failure

end JavaMetrics
