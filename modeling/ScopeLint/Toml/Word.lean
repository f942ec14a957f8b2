import ScopeLint.Config.Value
import ScopeLint.Toml.Text

/-!
# Words of TOML documents

Numbers, truth values, dates and times are words: longest stretches of letters,
digits, signs, dots, colons and underscores.  A word is taken whole, and its form
tells what it is.
-/

namespace ScopeLint.Toml.Word

/-- Whether a character may stand in a word. -/
def isInWord (c : Char) : Bool :=
  c.isAlphanum || c == '_' || c == '+' || c == '-' || c == '.' || c == ':'

/-! ## Numbers -/

/-- The digits of a number, in which single underscores may stand between two
digits; `ended` tells whether the number may end here. -/
def digits? (isDigit : Char → Bool) (ended : Bool) : List Char → Option (List Char)
  | [] => if ended then some [] else none
  | c :: rest =>
    if isDigit c then (digits? isDigit true rest).map (c :: ·)
    else if ended && c = '_' then digits? isDigit false rest
    else none

/-- The value of digits in a base. -/
def valueOf (base : Nat) (digits : List Char) : Nat :=
  digits.foldl (fun n c => n * base + (Text.hexValue? c).getD 0) 0

/-- A number within the range of signed 64-bit integers. -/
def inRange (n : Int) : Option Int :=
  if -0x8000000000000000 ≤ n ∧ n ≤ 0x7fffffffffffffff then some n else none

/-- A sign and what follows it. -/
def sign : List Char → Bool × List Char
  | '-' :: rest => (true, rest)
  | '+' :: rest => (false, rest)
  | rest => (false, rest)

/-- The digits of a decimal number, which has no zeros at its head. -/
def decimal? (s : List Char) : Option (List Char) :=
  match s with
  | '0' :: _ :: _ => none
  | _ => digits? Char.isDigit false s

/-- A whole number in base 2, 8, 10 or 16; only in base 10 with a sign. -/
def integer? (word : List Char) : Option Int :=
  let based (base : Nat) (isDigit : Char → Bool) (s : List Char) : Option Int :=
    (digits? isDigit false s).bind fun ds => inRange (valueOf base ds)
  match word with
  | '0' :: 'x' :: rest => based 16 (fun c => (Text.hexValue? c).isSome) rest
  | '0' :: 'o' :: rest => based 8 (fun c => '0' ≤ c && c ≤ '7') rest
  | '0' :: 'b' :: rest => based 2 (fun c => c == '0' || c == '1') rest
  | _ =>
    let (negative, rest) := sign word
    (decimal? rest).bind fun ds =>
      inRange (if negative then -(valueOf 10 ds : Int) else valueOf 10 ds)

/-- Whether digits times a power of ten exceed every 64-bit floating-point
number, so that the nearest of them would be infinite. -/
def overflows (digits : List Char) (exponent : Int) : Bool :=
  let digits := digits.dropWhile (· = '0')
  let size : Int := digits.length + exponent
  if digits.isEmpty || size < 300 then false
  else if size > 400 then true
  else
    let bound := Nat.pow 2 1024 - Nat.pow 2 970
    let scale := Nat.pow 10 exponent.natAbs
    if exponent < 0 then valueOf 10 digits ≥ bound * scale
    else valueOf 10 digits * scale ≥ bound

/-- Whether a word is a floating-point number: a decimal number with a fraction
or an exponent that is not too large, or one of the special values. -/
def isFloat (word : List Char) : Bool :=
  let (negative, rest) := sign word
  if rest = ['i', 'n', 'f'] ∨ rest = ['n', 'a', 'n'] then true
  else
    let whole := rest.takeWhile fun c => c.isDigit || c = '_'
    let afterWhole := rest.dropWhile fun c => c.isDigit || c = '_'
    let hasFraction := afterWhole.head? = some '.'
    let fractional := if hasFraction then afterWhole.drop 1 else []
    let fraction := fractional.takeWhile fun c => c.isDigit || c = '_'
    let power :=
      if hasFraction then fractional.dropWhile fun c => c.isDigit || c = '_' else afterWhole
    let hasPower := power.head? = some 'e' ∨ power.head? = some 'E'
    let fractionDigits := if hasFraction then digits? Char.isDigit false fraction else some []
    let powerDigits :=
      if hasPower then digits? Char.isDigit false (sign (power.drop 1)).2
      else if power = [] then some [] else none
    match decimal? whole, fractionDigits, powerDigits with
    | some ds, some fs, some ps =>
      let n : Int := valueOf 10 ps
      let n := if (sign (power.drop 1)).1 then -n else n
      (hasFraction || hasPower) && (negative || !overflows (ds ++ fs) (n - fs.length))
    | _, _, _ => false

/-! ## Dates and times -/

/-- The number of two digits, if it lies between two bounds. -/
def pair? (low high : Nat) (a b : Char) : Option Nat :=
  if a.isDigit && b.isDigit then
    let n := valueOf 10 [a, b]
    if low ≤ n ∧ n ≤ high then some n else none
  else none

/-- The days of a month. -/
def daysOf (year month : Nat) : Nat :=
  if month = 2 then
    if year % 4 = 0 ∧ (year % 100 ≠ 0 ∨ year % 400 = 0) then 29 else 28
  else if month = 4 ∨ month = 6 ∨ month = 9 ∨ month = 11 then 30
  else 31

/-- The text after the date at the head of a word. -/
def date? : List Char → Option (List Char)
  | a :: b :: c :: d :: '-' :: e :: f :: '-' :: g :: h :: rest =>
    if [a, b, c, d].all Char.isDigit then do
      let month ← pair? 1 12 e f
      let _ ← pair? 1 (daysOf (valueOf 10 [a, b, c, d]) month) g h
      some rest
    else none
  | _ => none

/-- A fraction of a second in its shortest writing: of at most nine digits, and
without zeros at its end. -/
def fraction (digits : List Char) : List Char :=
  match ((digits.take 9).reverse.dropWhile (· = '0')).reverse with
  | [] => []
  | digits => '.' :: digits

/-- The time of day at the head of a word, and the text after it. -/
def time? : List Char → Option (List Char × List Char)
  | a :: b :: ':' :: c :: d :: ':' :: e :: f :: rest => do
    let _ ← pair? 0 23 a b
    let _ ← pair? 0 59 c d
    let _ ← pair? 0 60 e f
    let time := [a, b, ':', c, d, ':', e, f]
    match rest with
    | '.' :: more =>
      if (more.takeWhile Char.isDigit).isEmpty then none
      else some (time ++ fraction (more.takeWhile Char.isDigit), more.dropWhile Char.isDigit)
    | _ => some (time, rest)
  | _ => none

/-- The writing of an offset from universal time that ends a word, if any. -/
def offset? : List Char → Option (List Char)
  | [] => some []
  | ['Z'] | ['z'] => some ['Z']
  | [s, a, b, ':', c, d] =>
    if s = '+' ∨ s = '-' then do
      let hours ← pair? 0 23 a b
      let minutes ← pair? 0 59 c d
      some ((if hours = 0 ∧ minutes = 0 then '+' else s) :: [a, b, ':', c, d])
    else none
  | _ => none

/-- A time of day with or without an offset that is a whole word. -/
def zonedTime? (word : List Char) : Option (List Char) := do
  let (time, rest) ← time? word
  let offset ← offset? rest
  some (time ++ offset)

/-- The writing of a time of day that is a whole word. -/
def localTime? (word : List Char) : Option (List Char) :=
  match time? word with
  | some (time, []) => some time
  | _ => none

/-! ## Values -/

/-- A value of some characters. -/
def moment (s : List Char) : ConfigValue := .moment (String.ofList s)

/-- Reads a date, which a time may follow after a letter or one space. -/
def readDate (word rest : List Char) : Read ConfigValue :=
  match date? word with
  | none => none
  | some [] =>
    let next := rest.drop 1
    match rest.head?, zonedTime? (next.takeWhile isInWord) with
    | some ' ', some time => some (moment (word ++ 'T' :: time), next.dropWhile isInWord)
    | _, _ => some (moment word, rest)
  | some (t :: time) =>
    if t = 'T' ∨ t = 't' then
      (zonedTime? time).map fun time => (moment (word.take 10 ++ 'T' :: time), rest)
    else none

/-- **Reads a word.** -/
def read (s : List Char) : Read ConfigValue :=
  let word := s.takeWhile isInWord
  let rest := s.dropWhile isInWord
  if word = "true".toList ∨ word = "false".toList then some (.other, rest)
  else
    match localTime? word, integer? word with
    | some time, _ => some (moment time, rest)
    | _, some n => some (.integer n, rest)
    | none, none => if isFloat word then some (.other, rest) else readDate word rest

end ScopeLint.Toml.Word
