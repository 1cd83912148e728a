import ChartNormal.Proofs.Expression
import Mathlib.Algebra.Order.Field.Basic
import Mathlib.Algebra.Order.Ring.Rat

/-!
# What an expression computes

An expression is cut into words, quoted names, numbers and signs (`Expression.lexemes?`), and read by the usual grammar:
products bind more closely than sums and differences, operators of one rank group from the left, and `min` and `max` are
called with two arguments (`Formula.read?`). A formula is evaluated over the rationals, on a row of columns.

The name of a column comes out of its quotes as it is, whatever its characters are (`lexemes?_datum`), and the text of a
factor is one number with its sign, the shortest decimal of the factor (`lexemes?_factor`).
-/

namespace ChartNormal

namespace Expression

/-! ### Lexemes -/

inductive Lexeme where
  | word (s : String)
  | quoted (name : String)
  | number (q : ℚ)
  | sign (c : Char)
deriving DecidableEq

/-- The number at the start of a text, with a fraction or without, and what follows. -/
def numeral (text : List Char) : ℚ × List Char :=
  let whole := text.takeWhile Char.isDigit
  match text.dropWhile Char.isDigit with
  | '.' :: rest =>
    let fraction := rest.takeWhile Char.isDigit
    (Nat.ofDigitChars 10 (whole ++ fraction) 0 / 10 ^ fraction.length, rest.dropWhile Char.isDigit)
  | rest => (Nat.ofDigitChars 10 whole 0, rest)

theorem length_numeral {c : Char} (hc : c.isDigit = true) (text : List Char) :
    (numeral (c :: text)).2.length < (c :: text).length := by
  have hdrop : ((c :: text).dropWhile Char.isDigit).length ≤ text.length := by
    rw [List.dropWhile_cons_of_pos hc]
    exact (List.dropWhile_sublist _).length_le
  rw [numeral, List.length_cons, Nat.lt_succ_iff]
  split
  · next rest h =>
    rw [h, List.length_cons] at hdrop
    exact (List.dropWhile_sublist _).length_le.trans (Nat.le_of_succ_le hdrop)
  · exact hdrop

/-- The lexemes of a text; no answer where a quoted name does not end. -/
def lexemes? : List Char → Option (List Lexeme)
  | [] => some []
  | c :: text =>
    if c = ' ' then lexemes? text
    else if c = '"' then
      match _h : unquote? text with
      | some (name, rest) => (lexemes? rest).map (.quoted (String.ofList name) :: ·)
      | none => none
    else if _h : c.isDigit = true then
      (lexemes? (numeral (c :: text)).2).map (.number (numeral (c :: text)).1 :: ·)
    else if c.isAlpha then
      (lexemes? (text.dropWhile Char.isAlpha)).map (.word (String.ofList (c :: text.takeWhile Char.isAlpha)) :: ·)
    else (lexemes? text).map (.sign c :: ·)
termination_by text => text.length
decreasing_by
  · exact Nat.lt_succ_self _
  · exact Nat.lt_succ_of_lt (length_unquote? _h)
  · exact length_numeral _h text
  · exact Nat.lt_succ_of_le (List.dropWhile_sublist _).length_le
  · exact Nat.lt_succ_self _

theorem lexemes?_nil : lexemes? [] = some [] := by rw [lexemes?]

theorem lexemes?_space (text : List Char) : lexemes? (' ' :: text) = lexemes? text := by
  rw [lexemes?, if_pos rfl]

theorem lexemes?_sign {c : Char} (hc : c ∈ ['[', ']', '(', ')', ',', '+', '-', '*']) (text : List Char) :
    lexemes? (c :: text) = (lexemes? text).map (.sign c :: ·) := by
  have hplain : c ≠ ' ' ∧ c ≠ '"' ∧ c.isDigit = false ∧ c.isAlpha = false := by
    simp only [List.mem_cons, List.not_mem_nil, or_false] at hc
    rcases hc with rfl | rfl | rfl | rfl | rfl | rfl | rfl | rfl <;> decide
  obtain ⟨hspace, hquote, hdigit, halpha⟩ := hplain
  rw [lexemes?, if_neg hspace, if_neg hquote, dif_neg (by simp [hdigit]), if_neg (by simp [halpha])]

theorem lexemes?_word {c : Char} {word text : List Char} (hc : c.isAlpha = true) (hdigit : c.isDigit = false)
    (hword : ∀ c ∈ word, c.isAlpha = true) (htext : ∀ c ∈ text.head?, c.isAlpha = false) :
    lexemes? (c :: word ++ text) = (lexemes? text).map (.word (String.ofList (c :: word)) :: ·) := by
  have hspace : c ≠ ' ' := by rintro rfl; cases hc
  have hquote : c ≠ '"' := by rintro rfl; cases hc
  have hrest : text.takeWhile Char.isAlpha = [] ∧ text.dropWhile Char.isAlpha = text := by
    cases text with
    | nil => exact ⟨rfl, rfl⟩
    | cons d text => simp [htext d rfl]
  rw [List.cons_append, lexemes?, if_neg hspace, if_neg hquote, dif_neg (by simp [hdigit]), if_pos hc,
    List.takeWhile_append_of_pos hword, List.dropWhile_append_of_pos hword, hrest.1, hrest.2, List.append_nil]

theorem lexemes?_quoted (name text : List Char) :
    lexemes? ('"' :: (name.flatMap Column.escape ++ '"' :: text)) =
      (lexemes? text).map (.quoted (String.ofList name) :: ·) := by
  rw [lexemes?, if_neg (by decide), if_pos rfl]
  split
  · next h =>
    rw [unquote?_escape] at h
    cases h
    rfl
  · next h =>
    rw [unquote?_escape] at h
    cases h

/-- The lexemes that read a column. -/
def Lexeme.column (name : String) : List Lexeme := [.word "datum", .sign '[', .quoted name, .sign ']']

theorem lexemes?_datum (field : String) (text : List Char) :
    lexemes? ((Column.datum field).toList ++ text) = (lexemes? text).map (Lexeme.column field ++ ·) := by
  have hlist : (Column.datum field).toList ++ text =
      'd' :: ['a', 't', 'u', 'm'] ++ '[' :: '"' :: (field.toList.flatMap Column.escape ++ '"' :: ']' :: text) := by
    simp [Column.datum]
  have hletters : ∀ c ∈ ['a', 't', 'u', 'm'], c.isAlpha = true := List.all_eq_true.1 (by decide)
  rw [hlist, lexemes?_word (by decide) (by decide) hletters (by simp), lexemes?_sign (by decide), lexemes?_quoted,
    lexemes?_sign (by decide)]
  simp [Lexeme.column, Function.comp_def]

/-! ### Numbers -/

/-- Nothing that would continue a number. -/
def EndsNumber (text : List Char) : Prop := ∀ c ∈ text.head?, c.isDigit = false ∧ c ≠ '.'

section Numeral

variable {digits text : List Char} (hdigits : ∀ c ∈ digits, c.isDigit = true) (htext : EndsNumber text)

include htext

theorem takeWhile_of_endsNumber : text.takeWhile Char.isDigit = [] ∧ text.dropWhile Char.isDigit = text := by
  cases text with
  | nil => exact ⟨rfl, rfl⟩
  | cons c text => simp [(htext c rfl).1]

include hdigits

theorem numeral_whole : numeral (digits ++ text) = ((Nat.ofDigitChars 10 digits 0 : ℚ), text) := by
  obtain ⟨htake, hdrop⟩ := takeWhile_of_endsNumber htext
  rw [numeral, List.takeWhile_append_of_pos hdigits, List.dropWhile_append_of_pos hdigits, htake, hdrop,
    List.append_nil]
  split
  · exact absurd rfl (htext '.' rfl).2
  · rfl

theorem numeral_fraction {fraction : List Char} (hfraction : ∀ c ∈ fraction, c.isDigit = true) :
    numeral (digits ++ '.' :: (fraction ++ text)) =
      ((Nat.ofDigitChars 10 (digits ++ fraction) 0 : ℚ) / 10 ^ fraction.length, text) := by
  obtain ⟨htake, hdrop⟩ := takeWhile_of_endsNumber htext
  have hpoint : ('.' :: (fraction ++ text)).takeWhile Char.isDigit = [] := rfl
  have hrest : ('.' :: (fraction ++ text)).dropWhile Char.isDigit = '.' :: (fraction ++ text) := rfl
  simp only [numeral, List.takeWhile_append_of_pos hdigits, List.dropWhile_append_of_pos hdigits, hpoint, hrest,
    List.append_nil, List.takeWhile_append_of_pos hfraction, List.dropWhile_append_of_pos hfraction, htake, hdrop]

end Numeral

/-- Digits are written with zeros after them, or with a point among them and at least one digit before it. -/
theorem point_cases {style : Layout} (hstyle : style.fraction = false) {digits : List Char} (hne : digits ≠ [])
    (hdigits : ∀ c ∈ digits, c.isDigit = true) (exponent : Int) :
    ∃ whole fraction, whole ≠ [] ∧ (∀ c ∈ whole ++ fraction, c.isDigit = true) ∧
      (Nat.ofDigitChars 10 (whole ++ fraction) 0 : ℚ) / 10 ^ fraction.length =
        Nat.ofDigitChars 10 digits 0 * 10 ^ exponent ∧
      (fraction = [] ∧ style.point digits exponent = whole ∨
        style.point digits exponent = whole ++ '.' :: fraction) := by
  have hzeros : ∀ n, ∀ c ∈ List.replicate n '0', c.isDigit = true := by
    intro n c hc
    rw [List.eq_of_mem_replicate hc]
    rfl
  rw [Layout.point]
  split
  · next hexp =>
    obtain ⟨n, rfl⟩ := Int.eq_ofNat_of_zero_le hexp
    refine ⟨digits ++ List.replicate n '0', [], by simp [hne], ?_, ?_, .inl ⟨rfl, ?_⟩⟩
    · rw [List.append_nil]
      exact List.forall_mem_append.2 ⟨hdigits, hzeros n⟩
    · rw [List.append_nil, Nat.ofDigitChars_append, Nat.ofDigitChars_replicate_zero]
      simp [mul_comm]
    · rw [hstyle, if_neg Bool.false_ne_true, List.append_nil]
      rfl
  · next hexp =>
    obtain ⟨n, rfl⟩ : ∃ n : Nat, exponent = -n := ⟨(-exponent).toNat, by omega⟩
    simp only [neg_neg, Int.toNat_natCast]
    set padded := List.replicate (n + 1 - digits.length) '0' ++ digits with hpadded
    have hlength : n < padded.length := by
      rw [hpadded, List.length_append, List.length_replicate]
      omega
    refine ⟨padded.take (padded.length - n), padded.drop (padded.length - n), ?_, ?_, ?_, .inr rfl⟩
    · refine List.ne_nil_of_length_pos ?_
      rw [List.length_take]
      omega
    · rw [List.take_append_drop]
      exact List.forall_mem_append.2 ⟨hzeros _, hdigits⟩
    · have hplaces : padded.length - (padded.length - n) = n := by omega
      rw [List.take_append_drop, List.length_drop, hplaces, hpadded, Nat.ofDigitChars_append,
        Nat.ofDigitChars_replicate_zero, Nat.mul_zero, zpow_neg, zpow_natCast, div_eq_mul_inv]

theorem lexemes?_digit {c : Char} (hc : c.isDigit = true) (text : List Char) :
    lexemes? (c :: text) = (lexemes? (numeral (c :: text)).2).map (.number (numeral (c :: text)).1 :: ·) := by
  have hspace : c ≠ ' ' := by rintro rfl; cases hc
  have hquote : c ≠ '"' := by rintro rfl; cases hc
  rw [lexemes?, if_neg hspace, if_neg hquote, dif_pos hc]

theorem lexemes?_point {style : Layout} (hstyle : style.fraction = false) {digits text : List Char} (hne : digits ≠ [])
    (hdigits : ∀ c ∈ digits, c.isDigit = true) (htext : EndsNumber text) (exponent : Int) :
    lexemes? (style.point digits exponent ++ text) =
      (lexemes? text).map (.number ((Nat.ofDigitChars 10 digits 0 : ℚ) * 10 ^ exponent) :: ·) := by
  obtain ⟨whole, fraction, hwhole, hall, hvalue, hpoint⟩ := point_cases hstyle hne hdigits exponent
  obtain ⟨c, rest, rfl⟩ := List.exists_cons_of_ne_nil hwhole
  obtain ⟨hleft, hright⟩ := List.forall_mem_append.1 hall
  have hc := hleft c List.mem_cons_self
  rw [← hvalue]
  rcases hpoint with ⟨rfl, hpoint⟩ | hpoint
  · rw [hpoint, List.cons_append, lexemes?_digit hc, ← List.cons_append, numeral_whole hleft htext]
    simp
  · rw [hpoint, List.append_assoc, List.cons_append, lexemes?_digit hc, List.cons_append, ← List.cons_append,
      numeral_fraction hleft htext hright]

/-- The shortest decimal of a number, without the sign. -/
def magnitude (k : Double) : ℚ :=
  if k.significand = 0 then 0
  else (k.shortest Extent.layout.tie).digits * 10 ^ (k.shortest Extent.layout.tie).exponent

theorem lexemes?_magnitude (k : Double) {text : List Char} (htext : EndsNumber text) :
    lexemes? (Extent.layout.magnitude k ++ text) = (lexemes? text).map (.number (magnitude k) :: ·) := by
  rw [Layout.magnitude, magnitude]
  split
  · rw [lexemes?_point rfl (by decide) (List.forall_mem_singleton.2 (by decide)) htext, zpow_zero, mul_one]
    rfl
  · have hdigits : ∀ c ∈ Nat.toDigits 10 (k.shortest Extent.layout.tie).digits, c.isDigit = true :=
      fun c hc => Nat.isDigit_of_mem_toDigits (by decide) (by decide) hc
    have hlayout : Extent.layout.fraction = false := rfl
    have hpoint := lexemes?_point hlayout Nat.toDigits_ne_nil hdigits htext
    rw [Nat.ofDigitChars_ten_toDigits] at hpoint
    exact hpoint _

/-- The lexemes of a factor. -/
def Lexeme.factor (k : Double) : List Lexeme :=
  if k.negative then [.sign '-', .number (magnitude k)] else [.number (magnitude k)]

theorem lexemes?_factor (k : Double) {text : List Char} (htext : EndsNumber text) :
    lexemes? ((Extent.factor k).toList ++ text) = (lexemes? text).map (Lexeme.factor k ++ ·) := by
  rw [Extent.factor, String.toList_ofList, Layout.write, Lexeme.factor]
  split
  · rw [List.cons_append, lexemes?_sign (by decide), lexemes?_magnitude k htext, Option.map_map]
    rfl
  · exact lexemes?_magnitude k htext

end Expression

/-! ### Formulas -/

inductive Formula where
  | number (q : ℚ)
  | column (name : String)
  | negate (a : Formula)
  | sum (a b : Formula)
  | difference (a b : Formula)
  | product (a b : Formula)
  | least (a b : Formula)
  | greatest (a b : Formula)

/-- The values of the columns of a row. -/
abbrev Row := String → Option ℚ

namespace Formula

open Expression

/-- The value on a row; no answer where the row lacks a column. -/
def eval? (row : Row) : Formula → Option ℚ
  | number q => some q
  | column name => row name
  | negate a => do return -(← eval? row a)
  | sum a b => do return (← eval? row a) + (← eval? row b)
  | difference a b => do return (← eval? row a) - (← eval? row b)
  | product a b => do return (← eval? row a) * (← eval? row b)
  | least a b => do return min (← eval? row a) (← eval? row b)
  | greatest a b => do return max (← eval? row a) (← eval? row b)

/-- Reads a formula off the front, and returns what follows. -/
abbrev Reader := List Lexeme → Option (Formula × List Lexeme)

/-- The operands after `a` of operators of one rank, grouped from the left. -/
def chain? (operand : Reader) (operator? : Lexeme → Option (Formula → Formula → Formula)) :
    Nat → Formula → Reader
  | more + 1, a, t :: ts =>
    match operator? t with
    | some op => do
      let (b, ts) ← operand ts
      chain? operand operator? more (op a b) ts
    | none => some (a, t :: ts)
  | _, a, ts => some (a, ts)

def times? (t : Lexeme) : Option (Formula → Formula → Formula) :=
  if t = .sign '*' then some product else none

def plusMinus? (t : Lexeme) : Option (Formula → Formula → Formula) :=
  if t = .sign '+' then some sum else if t = .sign '-' then some difference else none

def product? (operand : Reader) : Reader := fun ts => do
  let (a, ts) ← operand ts
  chain? operand times? ts.length a ts

def sum? (operand : Reader) : Reader := fun ts => do
  let (a, ts) ← product? operand ts
  chain? (product? operand) plusMinus? ts.length a ts

def function? (name : String) : Option (Formula → Formula → Formula) :=
  if name = "min" then some least else if name = "max" then some greatest else none

/-- Reads one sign. -/
def expect? (c : Char) : List Lexeme → Option (List Lexeme)
  | t :: ts => if t = .sign c then some ts else none
  | [] => none

/-- A number, a column, a call, an operand with a minus sign, or a formula in parentheses; at most `depth` of them
inside each other. -/
def operand? : (depth : Nat) → Reader
  | 0, _ => none
  | _ + 1, .number q :: ts => some (number q, ts)
  | _ + 1, .word w :: .sign '[' :: .quoted name :: .sign ']' :: ts =>
    if w = "datum" then some (column name, ts) else none
  | depth + 1, .word w :: .sign '(' :: ts => do
    let f ← function? w
    let (a, ts) ← sum? (operand? depth) ts
    let ts ← expect? ',' ts
    let (b, ts) ← sum? (operand? depth) ts
    let ts ← expect? ')' ts
    some (f a b, ts)
  | depth + 1, .sign '-' :: ts => do
    let (a, ts) ← operand? depth ts
    some (negate a, ts)
  | depth + 1, .sign '(' :: ts => do
    let (a, ts) ← sum? (operand? depth) ts
    let ts ← expect? ')' ts
    some (a, ts)
  | _ + 1, _ => none

/-- The formula that a list of lexemes spells, as a whole. -/
def ofLexemes? (ts : List Lexeme) : Option Formula := do
  let (a, rest) ← sum? (operand? ts.length) ts
  if rest.isEmpty then some a else none

def read? (expression : String) : Option Formula := (lexemes? expression.toList).bind ofLexemes?

-- products first, and then sums and differences from the left
example : (read? "1 - 2 - 3 * -4.5").bind (eval? fun _ => none) = some (25 / 2) := by decide +kernel

/-- The number that a factor is written as. -/
def ofFactor (k : Double) : Formula := if k.negative then negate (number (magnitude k)) else number (magnitude k)

end Formula

end ChartNormal
