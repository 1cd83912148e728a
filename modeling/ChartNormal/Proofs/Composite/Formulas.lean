import ChartNormal.Proofs.Composite.Ambiguity
import ChartNormal.Proofs.Formula
import ChartNormal.Proofs.Number.Shortest

/-!
# The formulas of composite marks

The expressions that a composite mark calculates are put together as text. Each name in them is quoted, and is taken
out of its quotes as it went in, so that no field name can break out of an expression (`datum_faithful`). Those of a
box plot read as the formulas that they are meant to be (`read?_upper`, `read?_lower`), with a factor that rounds back to
the extent it is written for (`round?_rational`), and on a row of quartiles they give the ends of the whiskers
(`whiskers_of_quartiles`).
-/

namespace ChartNormal

open Expression

/-! ### Quoted names -/

namespace Column

/-- Every `c` gives way to `text`. -/
def substitute (c : Char) (text : List Char) (name : List Char) : List Char :=
  name.flatMap fun d => if d = c then text else [d]

/-- Backslashes are doubled first, and then quotes get a backslash, so none that stands for a quote is doubled. -/
theorem flatMap_escape (name : List Char) :
    name.flatMap escape = substitute '"' ['\\', '"'] (substitute '\\' ['\\', '\\'] name) := by
  rw [substitute, substitute, List.flatMap_assoc]
  refine List.flatMap_congr fun c _ => ?_
  by_cases hslash : c = '\\'
  · subst hslash
    rfl
  · by_cases hquote : c = '"'
    · subst hquote
      rfl
    · simp [escape, hslash, hquote]

theorem toList_datum (field : String) :
    (datum field).toList = "datum[\"".toList ++ (field.toList.flatMap escape ++ ['"', ']']) := by
  simp [datum]

theorem datum_injective : Function.Injective datum := by
  intro f g h
  have hlists := congrArg String.toList h
  rw [toList_datum, toList_datum, List.append_cancel_left_eq] at hlists
  have hf := unquote?_escape f.toList [']']
  rw [hlists, unquote?_escape] at hf
  obtain ⟨hname, -⟩ := Prod.mk.inj (Option.some.inj hf)
  exact (String.toList_inj.1 hname).symm

end Column

namespace Composite

/-! ### The lexemes of the calculations -/

theorem lexemes?_binary {s : Char} (hs : s ∈ ['+', '-']) {sign : String} (hsign : sign.toList = [' ', s, ' '])
    (a b : String) :
    lexemes? (Column.datum a ++ sign ++ Column.datum b).toList =
      some (Lexeme.column a ++ .sign s :: Lexeme.column b) := by
  have hs : s ∈ ['[', ']', '(', ')', ',', '+', '-', '*'] := by rcases List.mem_pair.1 hs with rfl | rfl <;> decide
  have hb := lexemes?_datum b []
  rw [List.append_nil, lexemes?_nil] at hb
  rw [String.toList_append, String.toList_append, hsign, List.append_assoc, lexemes?_datum, List.cons_append,
    List.cons_append, List.cons_append, List.nil_append, lexemes?_space, lexemes?_sign hs, lexemes?_space, hb]
  rfl

/-- An end of a whisker: a multiple of the range away from the box, and no further than the bound. -/
def reachText (pick sign box range bound : String) (k : Double) : String :=
  pick ++ Column.datum box ++ sign ++ (Column.datum range ++ " * " ++ Extent.factor k) ++ ", " ++ Column.datum bound ++
    ")"

def reachLexemes (pick : String) (s : Char) (box range bound : String) (k : Double) : List Lexeme :=
  .word pick :: .sign '(' :: (Lexeme.column box ++ .sign s :: (Lexeme.column range ++ .sign '*' ::
    (Lexeme.factor k ++ .sign ',' :: (Lexeme.column bound ++ [.sign ')']))))

theorem lexemes?_reach {word : String} (hword : word ∈ ["min", "max"]) {s : Char} (hs : s ∈ ['+', '-']) {sign : String}
    (hsign : sign.toList = [' ', s, ' ']) (box range bound : String) (k : Double) :
    lexemes? (reachText (word ++ "(") sign box range bound k).toList = some (reachLexemes word s box range bound k) := by
  have hs : s ∈ ['[', ']', '(', ')', ',', '+', '-', '*'] := by rcases List.mem_pair.1 hs with rfl | rfl <;> decide
  obtain ⟨c, letters, hlist, hc, hdigit, hletters⟩ : ∃ c letters, word.toList = c :: letters ∧ c.isAlpha = true ∧
      c.isDigit = false ∧ ∀ d ∈ letters, d.isAlpha = true := by
    rcases List.mem_pair.1 hword with rfl | rfl
    · exact ⟨'m', ['i', 'n'], by decide, by decide, by decide, List.all_eq_true.1 (by decide)⟩
    · exact ⟨'m', ['a', 'x'], by decide, by decide, by decide, List.all_eq_true.1 (by decide)⟩
  have htext : (reachText (word ++ "(") sign box range bound k).toList =
      c :: letters ++ '(' :: ((Column.datum box).toList ++ ' ' :: s :: ' ' :: ((Column.datum range).toList ++
        ' ' :: '*' :: ' ' :: ((Extent.factor k).toList ++ ',' :: ' ' :: ((Column.datum bound).toList ++ [')'])))) := by
    simp [reachText, hlist, hsign]
  have hcomma : EndsNumber (',' :: ' ' :: ((Column.datum bound).toList ++ [')'])) := by
    intro d hd
    obtain rfl := Option.some.inj hd
    decide
  rw [htext, lexemes?_word hc hdigit hletters (by simp), lexemes?_sign (by decide), lexemes?_datum, lexemes?_space,
    lexemes?_sign hs, lexemes?_space, lexemes?_datum, lexemes?_space, lexemes?_sign (by decide), lexemes?_space,
    lexemes?_factor k hcomma, lexemes?_sign (by decide), lexemes?_space, lexemes?_datum, lexemes?_sign (by decide),
    lexemes?_nil, ← hlist, String.ofList_toList]
  rfl

theorem calculates_iqr (field : String) (k : Double) :
    BoxPlot.calculates field (.iqr k) =
      [⟨Column.derivedDatum "upperBox" field ++ " - " ++ Column.derivedDatum "lowerBox" field,
          Column.derived "iqrRange" field⟩,
        ⟨reachText ("min" ++ "(") " + " (Column.derived "upperBox" field) (Column.derived "iqrRange" field)
            (Column.derived "max" field) k, Column.derived "upperWhisker" field⟩,
        ⟨reachText ("max" ++ "(") " - " (Column.derived "lowerBox" field) (Column.derived "iqrRange" field)
            (Column.derived "min" field) k, Column.derived "lowerWhisker" field⟩] := rfl

/-! ### Names in expressions -/

/-- The name inside a quoted lexeme. -/
def quotedName? : Lexeme → Option String
  | .quoted name => some name
  | _ => none

theorem quoted_binary (a b : String) (s : Char) :
    (Lexeme.column a ++ .sign s :: Lexeme.column b).filterMap quotedName? = [a, b] := rfl

theorem quoted_reach (pick : String) (s : Char) (box range bound : String) (k : Double) :
    (reachLexemes pick s box range bound k).filterMap quotedName? = [box, range, bound] := by
  unfold reachLexemes Lexeme.factor
  split <;> rfl

/-- The quoted names in an expression are columns of the mark itself. -/
def QuotesOwn (field : String) (c : CalculateStage) : Prop :=
  ∃ ts labels, lexemes? c.calculate.toList = some ts ∧ labels ≠ [] ∧ labels ⊆ stems ∧
    ts.filterMap quotedName? = labels.map (Column.derived · field)

theorem quotesOwn_boxPlot (field : String) (w : BoxPlot.Whisker) :
    ∀ c ∈ BoxPlot.calculates field w, QuotesOwn field c := by
  cases w with
  | minMax => exact List.forall_mem_nil _
  | iqr k =>
    rw [calculates_iqr]
    refine List.forall_mem_cons.2 ⟨⟨_, ["upperBox", "lowerBox"], lexemes?_binary (s := '-') (by decide) rfl _ _,
      by decide, by decide, quoted_binary ..⟩, List.forall_mem_cons.2 ⟨⟨_, ["upperBox", "iqrRange", "max"],
      lexemes?_reach (s := '+') (by decide) (by decide) rfl .., by decide, by decide, quoted_reach ..⟩,
      List.forall_mem_singleton.2 ⟨_, ["lowerBox", "iqrRange", "min"],
      lexemes?_reach (s := '-') (by decide) (by decide) rfl .., by decide, by decide, quoted_reach ..⟩⟩⟩

theorem quotesOwn_interval (i : Interval) (field : String) : ∀ c ∈ i.calculates field, QuotesOwn field c := by
  rw [Interval.calculates]
  split
  · exact List.forall_mem_nil _
  · refine List.forall_mem_cons.2 ⟨⟨_, ["center", "extent"], lexemes?_binary (s := '+') (by decide) rfl _ _, by decide,
      by decide, quoted_binary ..⟩, List.forall_mem_singleton.2 ⟨_, ["center", "extent"],
      lexemes?_binary (s := '-') (by decide) rfl _ _, by decide, by decide, quoted_binary ..⟩⟩

theorem Recipe.quotesOwn {r : Recipe} (hr : r ∈ all) (p : Composite) (config : Config) :
    ∀ c ∈ r.calculates p config, QuotesOwn p.axis.field c := by
  intro c hc
  rcases mem_all_iff.1 hr with rfl | rfl | rfl
  · exact quotesOwn_boxPlot _ _ c hc
  · exact quotesOwn_interval _ _ c hc
  · exact quotesOwn_interval _ _ c hc

/-- Where only the vertical axis is bound, its field is the one that a composite mark runs along. -/
theorem eq_of_continuous_y {field name : String} {o : Orient} {d : FieldDef}
    (hd : (accepted (.ofList [(.y, .field { field := some field, type := .quantitative })])).field? o.continuous = some d)
    (hname : d.field = some name) : field = name := by
  cases o with
  | horizontal => cases hd
  | vertical =>
    cases hd
    exact Option.some.inj hname

/-- **Names stay inside their quotes.** A read of a column is a string literal that gives the name back, whatever
characters the name has: a backslash takes the next character as it is, and the first quote without one stands right
before the last bracket. So different names have different reads, and in the expressions of the standard composite
marks, under whatever tag they are used, the literals are the columns of the mark. -/
theorem datum_faithful :
    (∀ f : String,
      Column.datum f = "datum[\"" ++ String.ofList
          (Column.substitute '"' ['\\', '"'] (Column.substitute '\\' ['\\', '\\'] f.toList)) ++ "\"]" ∧
        ∃ body, (Column.datum f).toList = "datum[\"".toList ++ body ∧ unquote? body = some (f.toList, [']'])) ∧
      Function.Injective Column.datum ∧
      ∀ e ∈ Registry.standard.entries, ∀ u config l ws, e.2.expand u config = .noted l ws →
        ∃ o d field stages, (accepted u.encoding).field? (Orient.continuous o) = some d ∧ d.field = some field ∧
          l.transform = u.transform ++ stages ∧ ∀ c, Transform.calculate c ∈ stages → QuotesOwn field c := by
  refine ⟨fun f => ⟨?_, _, Column.toList_datum f, unquote?_escape f.toList [']']⟩, Column.datum_injective, ?_⟩
  · rw [Column.datum, Column.flatMap_escape]
  · intro e he u config l ws h
    obtain ⟨r, hr, hexpand⟩ := exists_recipe he
    rw [hexpand] at h
    obtain ⟨p, ws', units, hp, -, rfl⟩ := Recipe.expand_eq_noted h
    obtain ⟨o, d, field, -, hd, hfield, rfl⟩ := resolve_eq_noted hp
    set p := along u o d field
    refine ⟨o, d, field, p.pipeline [] (r.columns p config) (r.calculates p config), hd, hfield, by simp [pipeline], ?_⟩
    exact fun c hc => Recipe.quotesOwn hr p config c (calculate_mem_pipeline.1 hc)

/-- The name of the field looks like the end of a read and the start of another one. -/
theorem datum_faithful_errorBar :
    let field := "a\"] + datum[\"b\\"
    let u : UnitSpec :=
      { mark := .tag "errorbar", encoding := .ofList [(.y, .field { field := some field, type := .quantitative })] }
    Column.datum field = "datum[\"a\\\"] + datum[\\\"b\\\\\"]" ∧
      ∃ l ws stages, ErrorBar.expand u .defaults = .noted l ws ∧ l.transform = u.transform ++ stages ∧
        (∃ c, .calculate c ∈ stages) ∧ ∀ c, .calculate c ∈ stages → QuotesOwn field c := by
  intro field u
  have hsize : Except.map (fun r => r.1.transform.any fun t => match t with | .calculate _ => true | _ => false)
      (ErrorBar.expand u .defaults) = .ok true := by decide +kernel +zetaReduce
  obtain ⟨l, ws, h, hany⟩ := Report.exists_noted_of_map hsize
  have hmem : (ErrorBar.tag, ⟨ErrorBar.expand, ErrorBar.parts⟩) ∈ Registry.standard.entries :=
    List.mem_cons_of_mem _ (List.mem_cons_of_mem _ List.mem_cons_self)
  obtain ⟨hliteral, -, hexpand⟩ := datum_faithful
  obtain ⟨o, d, name, stages, hd, hname, htransform, hquotes⟩ := hexpand _ hmem u .defaults l ws h
  obtain rfl := eq_of_continuous_y hd hname
  refine ⟨(hliteral field).1.trans (by decide +kernel), l, ws, stages, h, htransform, ?_, hquotes⟩
  obtain ⟨t, ht, hcalculate⟩ := List.any_eq_true.1 hany
  rw [htransform] at ht
  cases t with
  | calculate c => exact ⟨c, ht⟩
  | _ => cases hcalculate

end Composite

/-! ### Stages over a row -/

/-- Writes what a stage computes into its column. -/
def CalculateStage.run? (row : Row) (s : CalculateStage) : Option Row := do
  let a ← Formula.read? s.calculate
  let v ← a.eval? row
  some (Function.update row s.as (some v))

theorem CalculateStage.run?_eq {row : Row} {s : CalculateStage} {a : Formula} {v : ℚ}
    (hread : Formula.read? s.calculate = some a) (hvalue : a.eval? row = some v) :
    s.run? row = some (Function.update row s.as (some v)) := by
  rw [run?, hread]
  change (a.eval? row).bind _ = _
  rw [hvalue]
  rfl

namespace Composite

open Formula

theorem read?_difference (a b : String) :
    read? (Column.datum a ++ " - " ++ Column.datum b) = some (difference (column a) (column b)) := by
  rw [read?, lexemes?_binary (s := '-') (by decide) rfl]
  rfl

theorem read?_upper (box range bound : String) (k : Double) :
    read? (reachText ("min" ++ "(") " + " box range bound k) =
      some (least (sum (column box) (product (column range) (ofFactor k))) (column bound)) := by
  rw [read?, lexemes?_reach (s := '+') (by decide) (by decide) rfl]
  unfold reachLexemes Lexeme.factor ofFactor
  split <;> rfl

theorem read?_lower (box range bound : String) (k : Double) :
    read? (reachText ("max" ++ "(") " - " box range bound k) =
      some (greatest (difference (column box) (product (column range) (ofFactor k))) (column bound)) := by
  rw [read?, lexemes?_reach (s := '-') (by decide) (by decide) rfl]
  unfold reachLexemes Lexeme.factor ofFactor
  split <;> rfl

/-! ### The factor as written -/

/-- The number that the text of a factor shows. -/
def rational (k : Double) : ℚ := if k.negative then -magnitude k else magnitude k

theorem eval?_ofFactor (row : Row) (k : Double) : (ofFactor k).eval? row = some (rational k) := by
  unfold ofFactor rational
  split <;> rfl

theorem read?_factor (k : Double) : read? (Extent.factor k) = some (ofFactor k) := by
  have hend : EndsNumber [] := fun c hc => by cases hc
  have hlexemes := lexemes?_factor k hend
  rw [List.append_nil, lexemes?_nil] at hlexemes
  rw [read?, hlexemes]
  unfold Lexeme.factor ofFactor
  split <;> rfl

theorem magnitude_nonneg (k : Double) : 0 ≤ magnitude k := by
  rw [magnitude]
  split <;> positivity

theorem around_magnitude {k : Double} (hk : k.InRange) : k.Around (magnitude k) := by
  rw [magnitude]
  split
  · next hzero =>
    have hsize : k.size = 0 := by simp [Double.size, hzero]
    exact hsize ▸ k.around_size
  · next hne => exact (Double.shortest_spec _ hk hne rfl).1

theorem abs_rational (k : Double) : |rational k| = magnitude k := by
  rw [rational]
  split
  · rw [abs_neg, abs_of_nonneg (magnitude_nonneg k)]
  · rw [abs_of_nonneg (magnitude_nonneg k)]

theorem rational_nonneg {k : Double} (h : k.negative = false) : 0 ≤ rational k := by
  rw [rational, if_neg (by simp [h])]
  exact magnitude_nonneg k

/-- No number of double precision is nearer to the text of a factor than the factor. -/
theorem abs_rational_sub_value_le {k y : Double} (hk : k.InRange) (hy : y.InRange) :
    |rational k - k.value| ≤ |rational k - y.value| := calc
  |rational k - k.value| = |magnitude k - k.size| := by
    rw [rational, Double.value]
    split
    · rw [neg_sub_neg, abs_sub_comm]
    · rfl
  _ ≤ |magnitude k - y.size| := (around_magnitude hk).abs_sub_le_abs_sub hk hy (magnitude_nonneg k)
  _ = |(|rational k| - |y.value|)| := by rw [abs_rational, Double.abs_value]
  _ ≤ |rational k - y.value| := abs_abs_sub_abs_le ..

/-- The text of a factor reads back as the factor. -/
theorem round?_rational {k : Double} (hk : k.InRange) {num den : ℕ} (hden : 0 < den) (h : |rational k| = num / den) :
    Double.round? k.negative num den = some k := by
  rw [abs_rational] at h
  exact (Double.round?_eq_some_iff hden).2 ⟨rfl, hk, h ▸ around_magnitude hk⟩

/-! ### Whiskers -/

section Run

variable {row : Row}

theorem run?_difference {a b : String} {x y : ℚ} (ha : row a = some x) (hb : row b = some y) (as : String) :
    CalculateStage.run? row ⟨Column.datum a ++ " - " ++ Column.datum b, as⟩ =
      some (Function.update row as (some (x - y))) := by
  refine CalculateStage.run?_eq (read?_difference a b) ?_
  simp [eval?, ha, hb]

variable {box range bound : String} {x r y : ℚ} (hbox : row box = some x) (hrange : row range = some r)
  (hbound : row bound = some y) (k : Double) (as : String)

include hbox hrange hbound

theorem run?_upper :
    CalculateStage.run? row ⟨reachText ("min" ++ "(") " + " box range bound k, as⟩ =
      some (Function.update row as (some (min (x + rational k * r) y))) := by
  refine CalculateStage.run?_eq (read?_upper box range bound k) ?_
  simp [eval?, hbox, hrange, hbound, eval?_ofFactor, mul_comm]

theorem run?_lower :
    CalculateStage.run? row ⟨reachText ("max" ++ "(") " - " box range bound k, as⟩ =
      some (Function.update row as (some (max (x - rational k * r) y))) := by
  refine CalculateStage.run?_eq (read?_lower box range bound k) ?_
  simp [eval?, hbox, hrange, hbound, eval?_ofFactor, mul_comm]

end Run

theorem derived_ne {a b : String} (ha : a ∈ stems) (hb : b ∈ stems) (h : a ≠ b) (field : String) :
    Column.derived a field ≠ Column.derived b field :=
  fun heq => h (Column.eq_of_derived_eq (stem_clean ha).1 (stem_clean hb).1 heq).1

/-- A row with the quartiles of a field and its smallest and largest value, as a box plot aggregates them. -/
structure Quartiles (row : Row) (field : String) (low q1 q3 high : ℚ) : Prop where
  smallest : row (Column.derived "min" field) = some low
  lowerBox : row (Column.derived "lowerBox" field) = some q1
  upperBox : row (Column.derived "upperBox" field) = some q3
  largest : row (Column.derived "max" field) = some high
  ordered : low ≤ q1 ∧ q1 ≤ q3 ∧ q3 ≤ high

theorem run_calculates {row : Row} {field : String} {low q1 q3 high : ℚ} (h : Quartiles row field low q1 q3 high)
    (k : Double) :
    (BoxPlot.calculates field (.iqr k)).foldlM CalculateStage.run? row =
      some (Function.update (Function.update (Function.update row
        (Column.derived "iqrRange" field) (some (q3 - q1)))
        (Column.derived "upperWhisker" field) (some (min (q3 + rational k * (q3 - q1)) high)))
        (Column.derived "lowerWhisker" field) (some (max (q1 - rational k * (q3 - q1)) low))) := by
  have hne {a b : String} (ha : a ∈ stems) (hb : b ∈ stems) (hab : a ≠ b) := derived_ne ha hb hab field
  rw [calculates_iqr, List.foldlM_cons, Column.derivedDatum, Column.derivedDatum, run?_difference h.upperBox h.lowerBox]
  change List.foldlM _ _ _ = _
  rw [List.foldlM_cons, run?_upper (x := q3) (r := q3 - q1) (y := high)]
  · change List.foldlM _ _ _ = _
    rw [List.foldlM_cons, run?_lower (x := q1) (r := q3 - q1) (y := low)]
    · rfl
    · rw [Function.update_of_ne (hne (by decide) (by decide) (by decide)),
        Function.update_of_ne (hne (by decide) (by decide) (by decide)), h.lowerBox]
    · rw [Function.update_of_ne (hne (by decide) (by decide) (by decide)), Function.update_self]
    · rw [Function.update_of_ne (hne (by decide) (by decide) (by decide)),
        Function.update_of_ne (hne (by decide) (by decide) (by decide)), h.smallest]
  · rw [Function.update_of_ne (hne (by decide) (by decide) (by decide)), h.upperBox]
  · exact Function.update_self ..
  · rw [Function.update_of_ne (hne (by decide) (by decide) (by decide)), h.largest]

/-- **Whiskers.** A box plot with the numeric extent `k` aggregates the quartiles and the ends of the field on its axis,
and calculates three columns from them. The extent is written into them as the number `rational k`. It rounds back to `k`,
and no number of double precision is nearer to it. On any row of quartiles the whiskers reach that many interquartile
ranges beyond the box, and stop at the ends of the data. So they never leave the data, and unless `k` is negative they do
not enter the box. -/
theorem whiskers_of_quartiles {u : UnitSpec} {config : Config} {l : LayerSpec} {ws : List Warning} {k : Double}
    (h : Registry.standard.dispatch u config = .noted l ws) (htag : u.mark.type = BoxPlot.tag)
    (hk : BoxPlot.whisker u.mark.toDef config = .iqr k) :
    (∀ row, (read? (Extent.factor k)).bind (eval? row) = some (rational k)) ∧
    (k.InRange →
      (∀ y : Double, y.InRange → |rational k - k.value| ≤ |rational k - y.value|) ∧
        ∀ num den : ℕ, 0 < den → |rational k| = num / den → Double.round? k.negative num den = some k) ∧
    (k.negative = false → 0 ≤ rational k) ∧
    ∃ (o : Orient) (d : FieldDef) (field : String) (before : List Transform) (columns : List AggregateColumn)
        (groupby : List String) (calculates : List CalculateStage),
      (accepted u.encoding).field? o.continuous = some d ∧ d.field = some field ∧
      l.transform = before ++ .aggregate columns groupby :: calculates.map .calculate ∧ calculates.length = 3 ∧
      (∀ s ∈ [(AggregateOp.min, "min"), (.q1, "lowerBox"), (.q3, "upperBox"), (.max, "max")],
        { op := s.1, field := some field, as := Column.derived s.2 field } ∈ columns) ∧
      ∀ (row : Row) (low q1 q3 high : ℚ), Quartiles row field low q1 q3 high →
        ∃ (row' : Row) (lower upper : ℚ), calculates.foldlM CalculateStage.run? row = some row' ∧
          row' (Column.derived "upperWhisker" field) = some upper ∧
          row' (Column.derived "lowerWhisker" field) = some lower ∧
          upper = min (q3 + rational k * (q3 - q1)) high ∧ lower = max (q1 - rational k * (q3 - q1)) low ∧
          upper ≤ high ∧ low ≤ lower ∧ (0 ≤ rational k → lower ≤ q1 ∧ q3 ≤ upper) := by
  refine ⟨fun row => by rw [read?_factor, Option.bind_some, eval?_ofFactor],
    fun hrange => ⟨fun _ => abs_rational_sub_value_le hrange, fun _ _ => round?_rational hrange⟩, rational_nonneg, ?_⟩
  obtain ⟨r, o, d, field, p, units, hr, -, hd, hfield, rfl, -, rfl⟩ := dispatch_eq_noted h
  rw [htag] at hr
  obtain rfl : Recipe.boxPlot = r := Option.some.inj hr
  have hcolumns : Recipe.boxPlot.columns (along u o d field) config = BoxPlot.columns field (.iqr k) :=
    congrArg (BoxPlot.columns field) hk
  have hcalculates : Recipe.boxPlot.calculates (along u o d field) config = BoxPlot.calculates field (.iqr k) :=
    congrArg (BoxPlot.calculates field) hk
  rw [hcolumns, hcalculates]
  refine ⟨o, d, field, _, _, _, _, hd, hfield, rfl, rfl, fun s hs => ?_, fun row low q1 q3 high hrow => ?_⟩
  · refine List.mem_append_right _ ?_
    simp only [List.mem_cons, List.not_mem_nil, or_false] at hs
    rcases hs with rfl | rfl | rfl | rfl <;> simp [BoxPlot.columns, BoxPlot.column]
  · obtain ⟨hlow, hbox, hhigh⟩ := hrow.ordered
    refine ⟨_, _, _, run_calculates hrow k, ?_, Function.update_self .., rfl, rfl, min_le_right .., le_max_right .., ?_⟩
    · rw [Function.update_of_ne (derived_ne (by decide) (by decide) (by decide) field), Function.update_self]
    · intro hnonneg
      have hreach : 0 ≤ rational k * (q3 - q1) := mul_nonneg hnonneg (sub_nonneg.2 hbox)
      exact ⟨max_le (sub_le_self q1 hreach) hlow, le_min (le_add_of_nonneg_right hreach) hhigh⟩

/-- A box plot of a field with quotes in its name, and one of its rows. The default extent is written as a number that
reads back as `3 / 2`. -/
theorem whiskers_of_quartiles_quoted :
    let field := "a\"] + datum[\"b\\"
    let u : UnitSpec :=
      { mark := .tag "box-plot", encoding := .ofList [(.y, .field { field := some field, type := .quantitative })] }
    let row : Row := fun name =>
      [(Column.derived "min" field, 0), (Column.derived "lowerBox" field, 10), (Column.derived "upperBox" field, 14),
        (Column.derived "max" field, 18)].lookup name
    let k : Double := .ofFraction false 3 2
    k.InRange ∧ rational k = 3 / 2 ∧ Double.round? false 3 2 = some k ∧
    ∃ l ws before columns groupby calculates row',
      Registry.standard.dispatch u .defaults = .noted l ws ∧
        l.transform = before ++ .aggregate columns groupby :: List.map .calculate calculates ∧
        calculates.foldlM CalculateStage.run? row = some row' ∧
        row' (Column.derived "upperWhisker" field) = some 18 ∧ row' (Column.derived "lowerWhisker" field) = some 4 := by
  intro field u row k
  have hok : (Registry.standard.dispatch u .defaults).failure? = none := by decide +kernel +zetaReduce
  obtain ⟨l, ws, h⟩ := Report.failure?_eq_none_iff.1 hok
  have hrange : k.InRange := by constructor <;> decide +kernel
  have hrational : rational k = 3 / 2 := by decide +kernel
  obtain ⟨-, hround, -, o, d, name, before, columns, groupby, calculates, hd, hname, htransform, -, -, hrun⟩ :=
    whiskers_of_quartiles (k := k) h rfl rfl
  obtain rfl := eq_of_continuous_y hd hname
  have hquartiles : Quartiles row field 0 10 14 18 := by
    constructor <;> decide +kernel +zetaReduce
  obtain ⟨row', lower, upper, hrow, hupper, hlower, rfl, rfl, -⟩ := hrun row 0 10 14 18 hquartiles
  refine ⟨hrange, hrational, (hround hrange).2 3 2 two_pos ?_, l, ws, before, columns, groupby, calculates, row', h,
    htransform, hrow, ?_, ?_⟩
  · rw [hrational]
    norm_num
  · rw [hupper, hrational]
    norm_num
  · rw [hlower, hrational]
    norm_num

end Composite

end ChartNormal
