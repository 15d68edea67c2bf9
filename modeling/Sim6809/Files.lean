/-!
Files as the library sees them: a path either gives bytes or a reason why it does not. How a path
is looked up, and how a reason is worded that the library does not tell from others, is decided
outside.
-/
namespace Sim6809

inductive ReadError
  | notFound
  | notUtf8
  /-- Any other reason, with the message of the system. -/
  | other (message : String)
  deriving DecidableEq, Repr

def ReadError.message : ReadError → String
  | notFound => "No such file or directory (os error 2)"
  | notUtf8 => "stream did not contain valid UTF-8"
  | other message => message

abbrev Files := String → Except ReadError ByteArray

namespace Files

def readBytes (files : Files) (path : String) : Except ReadError (Array UInt8) :=
  (files path).map (·.data)

def readText (files : Files) (path : String) : Except ReadError String :=
  match files path with
  | .error reason => .error reason
  | .ok bytes =>
    match String.fromUTF8? bytes with
    | some text => .ok text
    | none => .error .notUtf8

end Files

namespace Path

def splitName (path : List Char) : List Char × List Char :=
  let name := (path.reverse.takeWhile (· != '/')).reverse
  (path.take (path.length - name.length), name)

/-- The name without what follows its last dot; a dot in front begins no extension. -/
def stem (name : List Char) : List Char :=
  match (name.reverse.dropWhile (· != '.')).reverse.dropLast with
  | [] => name
  | stem => stem

def withExtension (path extension : String) : String :=
  let (directory, name) := splitName path.toList
  String.ofList directory ++ String.ofList (stem name) ++ "." ++ extension

end Path
end Sim6809
