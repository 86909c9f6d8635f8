/-!
# Texts

Blanks are the characters with the Unicode property `White_Space`. Letters change case within ASCII
only. Numbers are written and read in decimal and in hexadecimal, and a text is taken apart at the
places where a separator stands.
-/

namespace TaskFlow.Text

/-- The 25 characters of the Unicode property `White_Space`. -/
def isBlank (c : Char) : Bool :=
  let n := c.toNat
  (9 ≤ n && n ≤ 13) || n == 0x20 || n == 0x85 || n == 0xA0 || n == 0x1680 ||
    (0x2000 ≤ n && n ≤ 0x200A) || n == 0x2028 || n == 0x2029 || n == 0x202F || n == 0x205F ||
    n == 0x3000

/-- A list of characters without the blanks at its two ends. -/
def trimList (cs : List Char) : List Char :=
  ((cs.dropWhile isBlank).reverse.dropWhile isBlank).reverse

/-- A text without the blanks at its two ends. -/
def trim (s : String) : String :=
  String.ofList (trimList s.toList)

def isAllBlank (s : String) : Bool :=
  s.all isBlank

/-- A text with its ASCII letters in lower case. -/
def lower (s : String) : String :=
  String.ofList (s.toList.map Char.toLower)

/-- A text with its ASCII letters in upper case. -/
def upper (s : String) : String :=
  String.ofList (s.toList.map Char.toUpper)

/-- A text with every `a` replaced by `b`. -/
def swap (a b : Char) (s : String) : String :=
  String.ofList (s.toList.map fun c => if c = a then b else c)

/-- A number in decimal, with zeros in front up to a width. -/
def padDigits (width n : Nat) : List Char :=
  let digits := Nat.toDigits 10 n
  List.replicate (width - digits.length) '0' ++ digits

def digitValue (c : Char) : Nat :=
  c.toNat - 48

/-- The number that a list of decimal digits stands for; no digits stand for 0. -/
def readDigits (cs : List Char) : Nat :=
  cs.foldl (fun n c => 10 * n + digitValue c) 0

/-- The digits at the front of a text, at most `most` of them, and what follows. -/
def takeDigits : (most : Nat) → List Char → List Char × List Char
  | most + 1, c :: cs =>
    if c.isDigit then
      let (digits, rest) := takeDigits most cs
      (c :: digits, rest)
    else ([], c :: cs)
  | _, cs => ([], cs)

/-- A number of one to `most` digits at the front of a text, and what follows. -/
def number? (most : Nat) (cs : List Char) : Option (Nat × List Char) :=
  match takeDigits most cs with
  | ([], _) => none
  | (digits, rest) => some (readDigits digits, rest)

/-- The number that a text stands for which holds one decimal digit or more and nothing else. -/
def nat? (cs : List Char) : Option Nat :=
  if cs ≠ [] ∧ cs.all Char.isDigit then some (readDigits cs) else none

def hexDigit (n : Nat) : Char :=
  if n < 10 then Char.ofNat (48 + n) else Char.ofNat (87 + n)

def hexValue? (c : Char) : Option Nat :=
  if '0' ≤ c ∧ c ≤ '9' then some (c.toNat - 48)
  else if 'a' ≤ c ∧ c ≤ 'f' then some (c.toNat - 87)
  else if 'A' ≤ c ∧ c ≤ 'F' then some (c.toNat - 55)
  else none

/-- The last `width` digits of a number, high digits first. -/
def hexDigits : (width : Nat) → Nat → List Char
  | 0, _ => []
  | width + 1, n => hexDigits width (n / 16) ++ [hexDigit (n % 16)]

/-- Continues to read a number whose first digits gave `n`; every character must be a digit. -/
def readHexFrom : Nat → List Char → Option Nat
  | n, [] => some n
  | n, c :: cs => do readHexFrom (16 * n + (← hexValue? c)) cs

/-- The number that a list of hexadecimal digits stands for. -/
def readHex (cs : List Char) : Option Nat :=
  readHexFrom 0 cs

/-- The parts of a list of characters. Of the first of them `part` was read, last character first,
and the next `skip` characters belong to a separator. -/
def partsFrom (separator : List Char) :
    (skip : Nat) → (part : List Char) → List Char → List (List Char)
  | _, part, [] => [part.reverse]
  | skip + 1, part, _ :: cs => partsFrom separator skip part cs
  | 0, part, c :: cs =>
    if separator.isPrefixOf (c :: cs) then
      part.reverse :: partsFrom separator (separator.length - 1) [] cs
    else partsFrom separator 0 (c :: part) cs

/-- The parts of a text between the places where a separator stands. -/
def parts (separator text : String) : List String :=
  (partsFrom separator.toList 0 [] text.toList).map String.ofList

end TaskFlow.Text
