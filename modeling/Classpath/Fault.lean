import Classpath.Text.Surrogate
import Classpath.Uri.Host
import Classpath.Value.Printer

/-! # Faults and failures

A fault is a single cause: a text that is no location, a value of the wrong kind, a file that is
not there. A failure is what an operation of the library ends with: a fault that comes through as
it is, or one of three failures of the library's own, which name what was being done and may carry
a fault as their cause. Each has one wording. The wording of a reader's complaint about a malformed
text is not fixed here and stands as three dots.
-/

namespace Classpath

/-- Why a value is no location. -/
inductive SpellingFault where
  | blank
  | host (fault : Uri.HostFault)
  /-- Halves of surrogate pairs, which no file name holds. -/
  | unpaired (found : Text.Unpaired)
deriving DecidableEq, Repr

/-- The wording of a refused location. -/
def SpellingFault.message : SpellingFault → String
  | .blank => "artifact location must be a non-empty string"
  | .host fault => fault.message
  | .unpaired found =>
    let places :=
      if found.first = found.last then
        "character '\\u" ++ Text.paddedHex 4 found.half ++ "' in position " ++
          Text.ofInt found.first
      else
        "characters in position " ++ Text.ofInt found.first ++ "-" ++ Text.ofInt found.last
    "'utf-8' codec can't encode " ++ places ++ ": surrogates not allowed"

/-- A step on the way to an invalid part of a document. -/
inductive Step where
  | field (name : String)
  | item (index : Int)
deriving DecidableEq, Repr

/-- What is wrong with a part of a document. -/
inductive Defect where
  | spelling (fault : SpellingFault)
  | notText
  /-- Bytes that are no text, or a text with half of a surrogate pair. -/
  | notUnicode
  | notInteger
  | notIntegerText
  | integerTooLarge
  | fraction
  | notFinite
  | notTruth
  | notTruthText
  | notList
  | notTable
  | notRecord
deriving DecidableEq, Repr

/-- An invalid part of a document: where it stands and what is wrong. -/
structure Issue where
  place : List Step
  defect : Defect
deriving DecidableEq, Repr

/-- Why the file system refuses an operation. -/
inductive FileFault where
  | noEntry
  | exists
  | notDirectory
  | isDirectory
  | nameTooLong
  | tooManyLinks
deriving DecidableEq, Repr

/-- The number and the wording of a refusal of the file system. -/
def FileFault.describe : FileFault → Nat × String
  | .noEntry => (2, "No such file or directory")
  | .exists => (17, "File exists")
  | .notDirectory => (20, "Not a directory")
  | .isDirectory => (21, "Is a directory")
  | .nameTooLong => (36, "File name too long")
  | .tooManyLinks => (40, "Too many levels of symbolic links")

/-- The formats that a text may fail to have. -/
inductive Format where
  | utf8
  | json
  | yaml
  | toml
deriving DecidableEq, Repr

/-- The kinds of failure that a source may report in its own words. -/
inductive ReportKind where
  | runtime
  | value
  | system
  | key
deriving DecidableEq, Repr

/-- A single cause. -/
inductive Fault where
  /-- A record with invalid parts. -/
  | invalid (issues : List Issue)
  | spelling (fault : SpellingFault)
  /-- A path was asked of a location that is not local. -/
  | notLocal (uri : String)
  | namelessShipment
  | unknownSettings (names : List String)
  | notTruth (setting : String) (value : Value)
  /-- Digits of a base were expected. -/
  | notNumeral (base : Nat) (written : String)
  /-- A numeral of so many digits, which are too many. -/
  | longNumeral (digits : Nat)
  /-- A whole number has too many digits to be written. -/
  | longNumber
  | notDecimal (written : String)
  /-- A whole number beyond all floating point numbers. -/
  | tooGreat
  /-- A number that is no character. -/
  | notCharacter
  /-- A number that is no character and does not fit into 32 bits with a sign. -/
  | hugeCharacter
  /-- A character was asked of an empty text. -/
  | emptyText
  /-- A calendar field is out of its range. -/
  | calendar (complaint : String)
  | nanToInteger
  | infinityToInteger
  /-- A file changed before the first year that an archive can store. -/
  | tooEarly
  /-- A file changed after the last year that an archive can store. -/
  | tooLate
  | file (fault : FileFault) (path : String)
  | notIterable (kind : String)
  | unhashable (kind : String)
  | notText (kind : String)
  | notPath (kind : String)
  | notNumber (kind : String)
  | unordered (sign left right : String)
  /-- Moments that have no order. -/
  | incomparable (complaint : String)
  /-- Only a text can be looked for in a text. -/
  | notPattern (kind : String)
  /-- Only a text can be searched for the fields of a timestamp. -/
  | notSearchable (kind : String)
  /-- Exclusions have to be given as a collection. -/
  | notExclusions (kind : String)
  | notAddable (left right : String)
  | notJoinable (kind : String)
  | noAttribute (kind name : String)
  | unknownSetting (name : String)
  /-- A name that is in use for something else than a setting. -/
  | usedName (name : String)
  /-- The name of what is merged into. -/
  | ownName
  /-- Overrides have to be given as a table. -/
  | notOverrides (kind : String)
  /-- Collections inside each other beyond what can be followed. -/
  | tooDeep
  | missingKey (key : Value)
  /-- Text that a reader refuses. -/
  | malformed (format : Format)
  /-- A failure that a source reports in its own words. -/
  | reported (kind : ReportKind) (message : String)
  /-- A directory that could not be packed. -/
  | archive (path message : String) (cause : Option Fault)
  /-- A settings file that could not be read. -/
  | settings (path message : String) (cause : Option Fault)
deriving Repr

/-- The wording of a fault. -/
def Fault.message : Fault → String
  | .invalid _ => "..."
  | .spelling fault => fault.message
  | .notLocal uri => "Not a local location: " ++ uri
  | .namelessShipment => "DeploymentCollection requires a name"
  | .unknownSettings names => "Unknown settings: " ++ String.intercalate ", " names
  | .notTruth setting value =>
    "Setting '" ++ setting ++ "' must be true or false, got " ++ value.written
  | .notNumeral base written =>
    "invalid literal for int() with base " ++ Text.ofInt base ++ ": " ++ Text.quotedUpTo 200 written
  | .longNumeral digits =>
    "Exceeds the limit (" ++ Text.ofInt Text.digitLimit ++ " digits) for integer string " ++
      "conversion: value has " ++ Text.ofInt digits ++
      " digits; use sys.set_int_max_str_digits() to increase the limit"
  | .longNumber =>
    "Exceeds the limit (" ++ Text.ofInt Text.digitLimit ++ " digits) for integer string " ++
      "conversion; use sys.set_int_max_str_digits() to increase the limit"
  | .notDecimal written => "could not convert string to float: " ++ Text.quoted written
  | .tooGreat => "int too large to convert to float"
  | .notCharacter => "chr() arg not in range(0x110000)"
  | .hugeCharacter => "Python int too large to convert to C int"
  | .emptyText => "string index out of range"
  | .calendar complaint => complaint
  | .nanToInteger => "cannot convert float NaN to integer"
  | .infinityToInteger => "cannot convert float infinity to integer"
  | .tooEarly => "ZIP does not support timestamps before 1980"
  | .tooLate => "ushort format requires 0 <= number <= 65535"
  | .file fault path =>
    let (number, words) := fault.describe
    "[Errno " ++ Text.ofInt number ++ "] " ++ words ++ ": " ++ Text.quoted path
  | .notIterable kind => "'" ++ kind ++ "' object is not iterable"
  | .unhashable kind => "unhashable type: '" ++ kind ++ "'"
  | .notText kind => "sequence item 0: expected str instance, " ++ kind ++ " found"
  | .notPath kind => "expected str, bytes or os.PathLike object, not " ++ kind
  | .notNumber kind =>
    "int() argument must be a string, a bytes-like object or a real number, not '" ++ kind ++ "'"
  | .unordered sign left right =>
    "'" ++ sign ++ "' not supported between instances of '" ++ left ++ "' and '" ++ right ++ "'"
  | .incomparable complaint => complaint
  | .notPattern kind => "'in <string>' requires string as left operand, not " ++ kind
  | .notSearchable kind => "expected string or bytes-like object, got '" ++ kind ++ "'"
  | .notExclusions kind =>
    "anchorpack.core.resolver.ClassDependencyResolver.excluding() argument after * must be an " ++
      "iterable, not " ++ kind
  | .notAddable left right =>
    "unsupported operand type(s) for +: '" ++ left ++ "' and '" ++ right ++ "'"
  | .notJoinable kind =>
    "can only concatenate " ++ kind ++ " (not \"str\") to " ++ kind
  | .noAttribute kind name => "'" ++ kind ++ "' object has no attribute '" ++ name ++ "'"
  | .unknownSetting name => "'ResolverSettings' object has no attribute '" ++ name ++ "'"
  | .usedName name =>
    "ResolverSettings.__init__() got an unexpected keyword argument '" ++ name ++ "'"
  | .ownName => "ResolverSettings.merge() got multiple values for argument 'self'"
  | .notOverrides kind =>
    "anchorpack.config.ResolverSettings.merge() argument after ** must be a mapping, not " ++ kind
  | .tooDeep => "maximum recursion depth exceeded"
  | .missingKey key => key.written
  | .malformed _ => "..."
  | .reported .key message => Text.quoted message
  | .reported _ message => message
  | .archive path message _ => "Archive error for " ++ path ++ ": " ++ message
  | .settings path message _ => "Failed to parse " ++ path ++ ": " ++ message

/-- How an operation of the library fails. -/
inductive Failure where
  /-- The class graph cannot be built from the source of that label. -/
  | graph (label message : String) (cause : Option Fault)
  /-- A directory cannot be packed. -/
  | archive (path message : String) (cause : Option Fault)
  /-- A settings file cannot be read. -/
  | settings (path message : String) (cause : Option Fault)
  /-- A fault that comes through as it is. -/
  | fault (fault : Fault)
deriving Repr

/-- The wording of a failure. -/
def Failure.message : Failure → String
  | .graph label message _ => "Dependency graph '" ++ label ++ "' unavailable: " ++ message
  | .archive path message cause => (Fault.archive path message cause).message
  | .settings path message cause => (Fault.settings path message cause).message
  | .fault cause => cause.message

/-- What a failure is as the cause of another one. A graph that cannot be built is passed on as it
is and causes no other failure. -/
def Failure.asCause? : Failure → Option Fault
  | .graph .. => none
  | .archive path message cause => some (.archive path message cause)
  | .settings path message cause => some (.settings path message cause)
  | .fault cause => some cause

/-- The fault behind a failure. -/
def Failure.cause? : Failure → Option Fault
  | .graph _ _ cause => cause
  | .archive _ _ cause => cause
  | .settings _ _ cause => cause
  | .fault cause => some cause

end Classpath
