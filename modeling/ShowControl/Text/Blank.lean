/-! White space, and the lines and words that it separates.

Lines end at any of the ten line breaks; words are the longest runs without a blank. A word list
forgets the blanks around its words, `afterWords` keeps those inside the remainder. -/

set_option autoImplicit false
namespace ShowControl.Text

/-- The white space of the Unicode standard and the four information separators. -/
def isBlank (c : Char) : Bool :=
  let n := c.toNat
  (9 ≤ n && n ≤ 13) || (0x1c ≤ n && n ≤ 0x20) || n == 0x85 || n == 0xa0 || n == 0x1680
    || (0x2000 ≤ n && n ≤ 0x200a) || n == 0x2028 || n == 0x2029 || n == 0x202f || n == 0x205f
    || n == 0x3000

/-- The blanks that may stand around a numeral: all but the information separators. -/
def isPadding (c : Char) : Bool :=
  isBlank c && !(0x1c ≤ c.toNat && c.toNat ≤ 0x1f)

def isLineBreak (c : Char) : Bool :=
  let n := c.toNat
  (10 ≤ n && n ≤ 13) || (0x1c ≤ n && n ≤ 0x1e) || n == 0x85 || n == 0x2028 || n == 0x2029

theorem isBlank_of_isLineBreak {c : Char} (h : isLineBreak c = true) : isBlank c = true := by
  simp only [isLineBreak, isBlank, Bool.or_eq_true, Bool.and_eq_true, decide_eq_true_eq,
    beq_iff_eq] at h ⊢
  omega

/-- The lines of a text without their breaks. A break at the very end opens no further line, and a
carriage return with a line feed behind it is one break. -/
def lineChars : List Char → List (List Char)
  | [] => []
  | '\r' :: '\n' :: rest => [] :: lineChars rest
  | c :: rest =>
    if isLineBreak c then [] :: lineChars rest
    else match lineChars rest with
      | [] => [[c]]
      | line :: lines => (c :: line) :: lines

def wordChars : List Char → List (List Char)
  | [] => []
  | [c] => if isBlank c then [] else [[c]]
  | c :: d :: rest =>
    if isBlank c then wordChars (d :: rest)
    else if isBlank d then [c] :: wordChars rest
    else match wordChars (d :: rest) with
      | [] => [[c]]
      | word :: words => (c :: word) :: words

def afterWords : Nat → List Char → List Char
  | 0, cs => cs.dropWhile isBlank
  | n + 1, cs => afterWords n ((cs.dropWhile isBlank).dropWhile fun c => !isBlank c)

def dropWhileEnd {α : Type} (p : α → Bool) (xs : List α) : List α :=
  (xs.reverse.dropWhile p).reverse

def trimChars (p : Char → Bool) (cs : List Char) : List Char :=
  dropWhileEnd p (cs.dropWhile p)

def lines (s : String) : List String := (lineChars s.toList).map String.ofList

def words (s : String) : List String := (wordChars s.toList).map String.ofList

def trim (s : String) : String := String.ofList (trimChars isBlank s.toList)

def remainder (n : Nat) (s : String) : String :=
  String.ofList (dropWhileEnd isBlank (afterWords n s.toList))

end ShowControl.Text
