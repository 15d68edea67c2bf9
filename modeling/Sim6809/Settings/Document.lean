import Sim6809.Text.Hex

/-!
The settings file's notation: lines of the form `key = value` with comments, where a value is an
integer, a truth value, a string or an array of strings. Anything else that the notation's full
language allows has no place in a settings file, so a document with it is refused.
-/
namespace Sim6809.Settings

inductive Value
  | integer (value : Int)
  | boolean (value : Bool)
  | text (value : String)
  | texts (values : List String)
  deriving DecidableEq, Repr

namespace Document

abbrev Read (α : Type) := Option (α × List Char)

def isSpace (c : Char) : Bool := c == ' ' || c == '\t'

/-- A character that may stand in a comment or a string: no control character but the tab. -/
def isPlain (c : Char) : Bool := c == '\t' || (0x20 ≤ c.toNat && c.toNat != 0x7F)

def isBareKey (c : Char) : Bool :=
  c.isAlphanum || c == '_' || c == '-'

def unifyLineEnds : List Char → List Char
  | '\r' :: '\n' :: rest => '\n' :: unifyLineEnds rest
  | c :: rest => c :: unifyLineEnds rest
  | [] => []

def skipSpaces (text : List Char) : List Char := text.dropWhile isSpace

def skipComment : List Char → List Char
  | '#' :: rest => rest.dropWhile fun c => isPlain c
  | text => text

/-- What follows blanks, line ends and comments; the flag tells whether a comment is open. -/
def skipGaps : Bool → List Char → List Char
  | true, '\n' :: rest => skipGaps false rest
  | true, c :: rest => if isPlain c then skipGaps true rest else c :: rest
  | false, '#' :: rest => skipGaps true rest
  | false, c :: rest => if isSpace c || c == '\n' then skipGaps false rest else c :: rest
  | _, [] => []

/-- The end of a line: blanks, perhaps a comment, then a line feed or the end of the text. -/
def endLine? (text : List Char) : Option (List Char) :=
  match skipComment (skipSpaces text) with
  | [] => some []
  | '\n' :: rest => some rest
  | _ => none

/-- The character with the given number in hexadecimal digits, if there is one. -/
def scalar? (digits : List Char) : Option Char :=
  match digits.foldlM (fun n d => (Hex.value? d).map (16 * n + ·)) 0 with
  | some n => if n.isValidChar then some (Char.ofNat n) else none
  | none => none

def escaped? : Char → Option Char
  | 'b' => some '\x08'
  | 't' => some '\t'
  | 'n' => some '\n'
  | 'f' => some '\x0c'
  | 'r' => some '\r'
  | '"' => some '"'
  | '\\' => some '\\'
  | _ => none

def push (c : Char) (read : Read (List Char)) : Read (List Char) :=
  read.map fun (text, rest) => (c :: text, rest)

def push? (c : Option Char) (read : Read (List Char)) : Read (List Char) :=
  match c with
  | some c => push c read
  | none => none

def basic : List Char → Read (List Char)
  | '"' :: rest => some ([], rest)
  | '\\' :: 'u' :: a :: b :: c :: d :: rest => push? (scalar? [a, b, c, d]) (basic rest)
  | '\\' :: 'U' :: a :: b :: c :: d :: e :: f :: g :: h :: rest =>
    push? (scalar? [a, b, c, d, e, f, g, h]) (basic rest)
  | '\\' :: c :: rest => push? (escaped? c) (basic rest)
  | c :: rest => if isPlain c then push c (basic rest) else none
  | [] => none

def literal : List Char → Read (List Char)
  | '\'' :: rest => some ([], rest)
  | c :: rest => if isPlain c then push c (literal rest) else none
  | [] => none

inductive Place
  | text
  | lineEnd
  | removed
  deriving DecidableEq

/-- Closes a string of several lines at a run of quotation marks, of which up to two in front of
the closing ones belong to the string. -/
def closing? (quote : Char) : List Char → Read (List Char)
  | a :: b :: c :: rest =>
    if a = quote ∧ b = quote ∧ c = quote then
      match rest with
      | d :: e :: rest =>
        if d = quote ∧ e = quote then some ([quote, quote], rest)
        else if d = quote then some ([quote], e :: rest)
        else some ([], d :: e :: rest)
      | [d] => if d = quote then some ([quote], []) else some ([], [d])
      | [] => some ([], [])
    else none
  | _ => none

def basicLines : Place → List Char → Read (List Char)
  | .lineEnd, ' ' :: rest => basicLines .lineEnd rest
  | .lineEnd, '\t' :: rest => basicLines .lineEnd rest
  | .lineEnd, '\n' :: rest => basicLines .removed rest
  | .lineEnd, _ => none
  | .removed, ' ' :: rest => basicLines .removed rest
  | .removed, '\t' :: rest => basicLines .removed rest
  | .removed, '\n' :: rest => basicLines .removed rest
  | _, '\\' :: ' ' :: rest => basicLines .lineEnd rest
  | _, '\\' :: '\t' :: rest => basicLines .lineEnd rest
  | _, '\\' :: '\n' :: rest => basicLines .removed rest
  | _, '\\' :: 'u' :: a :: b :: c :: d :: rest =>
    push? (scalar? [a, b, c, d]) (basicLines .text rest)
  | _, '\\' :: 'U' :: a :: b :: c :: d :: e :: f :: g :: h :: rest =>
    push? (scalar? [a, b, c, d, e, f, g, h]) (basicLines .text rest)
  | _, '\\' :: c :: rest => push? (escaped? c) (basicLines .text rest)
  | _, c :: rest =>
    match closing? '"' (c :: rest) with
    | some closed => some closed
    | none => if isPlain c || c == '\n' then push c (basicLines .text rest) else none
  | _, [] => none

def literalLines : List Char → Read (List Char)
  | c :: rest =>
    match closing? '\'' (c :: rest) with
    | some closed => some closed
    | none => if isPlain c || c == '\n' then push c (literalLines rest) else none
  | [] => none

def dropFirstLineEnd : List Char → List Char
  | '\n' :: rest => rest
  | text => text

def string? : List Char → Read String
  | '"' :: '"' :: '"' :: rest => (basicLines .text (dropFirstLineEnd rest)).map finish
  | '"' :: rest => (basic rest).map finish
  | '\'' :: '\'' :: '\'' :: rest => (literalLines (dropFirstLineEnd rest)).map finish
  | '\'' :: rest => (literal rest).map finish
  | _ => none
where
  finish (read : List Char × List Char) : String × List Char := (String.ofList read.1, read.2)

/-- The digits of a number, where an underscore may stand between two digits. -/
def digits (isDigit : Char → Bool) : List Char → List Char × List Char
  | c :: '_' :: d :: rest =>
    if isDigit c && isDigit d then
      let (more, rest) := digits isDigit (d :: rest)
      (c :: more, rest)
    else if isDigit c then ([c], '_' :: d :: rest)
    else ([], c :: '_' :: d :: rest)
  | c :: rest =>
    if isDigit c then
      let (more, rest) := digits isDigit rest
      (c :: more, rest)
    else ([], c :: rest)
  | [] => ([], [])

def valueOf (radix : Nat) (ds : List Char) : Nat :=
  ds.foldl (fun n d => n * radix + (Hex.value? d).getD 0) 0

def isDigitOf (radix : Nat) (c : Char) : Bool :=
  match Hex.value? c with
  | some n => n < radix
  | none => false

def natural? (radix : Nat) (text : List Char) : Read Nat :=
  match digits (isDigitOf radix) text with
  | ([], _) => none
  | (ds, rest) => some (valueOf radix ds, rest)

def decimal? : List Char → Read Nat
  | '0' :: rest => some (0, rest)
  | text => natural? 10 text

/-- An integer; only decimal ones have a sign. -/
def integer? : List Char → Read Int
  | '0' :: 'x' :: rest => (natural? 16 rest).map fun (n, rest) => ((n : Int), rest)
  | '0' :: 'o' :: rest => (natural? 8 rest).map fun (n, rest) => ((n : Int), rest)
  | '0' :: 'b' :: rest => (natural? 2 rest).map fun (n, rest) => ((n : Int), rest)
  | '-' :: rest => (decimal? rest).map fun (n, rest) => (-(n : Int), rest)
  | '+' :: rest => (decimal? rest).map fun (n, rest) => ((n : Int), rest)
  | text => (decimal? text).map fun (n, rest) => ((n : Int), rest)

def fits (n : Int) : Bool := -0x8000000000000000 ≤ n && n < 0x8000000000000000

/-- The strings of an array from behind its opening bracket or a comma on; the fuel bounds their
number. -/
def items? : Nat → List Char → Read (List String)
  | 0, _ => none
  | fuel + 1, text =>
    match skipGaps false text with
    | ']' :: rest => some ([], rest)
    | text =>
      match string? text with
      | none => none
      | some (item, rest) =>
        match skipGaps false rest with
        | ']' :: rest => some ([item], rest)
        | ',' :: rest => (items? fuel rest).map fun (items, rest) => (item :: items, rest)
        | _ => none

def value? : List Char → Read Value
  | 't' :: 'r' :: 'u' :: 'e' :: rest => some (.boolean true, rest)
  | 'f' :: 'a' :: 'l' :: 's' :: 'e' :: rest => some (.boolean false, rest)
  | '[' :: rest => (items? (rest.length + 1) rest).map fun (items, rest) => (.texts items, rest)
  | '"' :: rest => (string? ('"' :: rest)).map fun (s, rest) => (.text s, rest)
  | '\'' :: rest => (string? ('\'' :: rest)).map fun (s, rest) => (.text s, rest)
  | text =>
    match integer? text with
    | some (n, rest) => if fits n then some (.integer n, rest) else none
    | none => none

def key? : List Char → Read String
  | '"' :: rest => (basic rest).map fun (k, rest) => (String.ofList k, rest)
  | '\'' :: rest => (literal rest).map fun (k, rest) => (String.ofList k, rest)
  | text =>
    match text.takeWhile isBareKey with
    | [] => none
    | k => some (String.ofList k, text.dropWhile isBareKey)

def entry? (text : List Char) : Read (String × Value) :=
  match key? text with
  | none => none
  | some (key, rest) =>
    match skipSpaces rest with
    | '=' :: rest => (value? (skipSpaces rest)).map fun (value, rest) => ((key, value), rest)
    | _ => none

/-- The entries of a text; the fuel bounds the number of its lines. -/
def entries? : Nat → List Char → Option (List (String × Value))
  | 0, _ => none
  | fuel + 1, text =>
    match skipSpaces text with
    | [] => some []
    | '\n' :: rest => entries? fuel rest
    | '#' :: rest => (endLine? ('#' :: rest)).bind (entries? fuel)
    | text =>
      match entry? text with
      | none => none
      | some (entry, rest) =>
        match endLine? rest with
        | none => none
        | some rest => (entries? fuel rest).map (entry :: ·)

def dropMark : List Char → List Char
  | '\uFEFF' :: rest => rest
  | text => text

def parse? (text : String) : Option (List (String × Value)) :=
  let text := unifyLineEnds (dropMark text.toList)
  entries? (text.length + 1) text

end Document
end Sim6809.Settings
