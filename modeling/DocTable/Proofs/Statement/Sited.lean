import DocTable.Proofs.Statement.Sites

/-!
# Fragments with a column for each operand

The operands of a fragment go to its own columns when it names a column before its first
operand (`Sited`). Such fragments are composed with words between them, and their operands
are those of the parts, in order.
-/

namespace DocTable
set_option autoImplicit false
open Sql (Place)

/-- A well spaced fragment and its operands, each with its column, whatever stands before it. -/
structure Fragment.Sited (b : Backend) (f : Fragment) (operands : List (String × SqlValue)) :
    Prop where
  spaced : f.WellSpaced
  sites : ∀ column, f.sites b.dialect (.beside column) = operands

namespace Piece

theorem placeAfter_word (b : Backend) {s : String} (plain : (word s).isPlain = true)
    (column : String) : (word s).placeAfter b.dialect (.beside column) = .beside column := by
  obtain ⟨-, chars⟩ := plain_of_isPlain plain
  refine Place.after_beside ?_ column
  intro l hl e
  have h := (Sql.lexemes_plain b chars).1 l hl
  rw [e] at h
  cases h

/-- A reader that stands beside a name goes on to stand beside one. -/
theorem placeAfter_beside (d : Dialect) (p : Piece) (column : String) :
    ∃ other, p.placeAfter d (.beside column) = .beside other := by
  have after : ∀ (ls : List Sql.Lexeme) (column : String),
      ∃ other, (Place.beside column).after d ls = .beside other := by
    intro ls
    induction ls with
    | nil => exact fun column => ⟨column, rfl⟩
    | cons l ls ih => exact fun column => ih ((l.name? d).getD column)
  cases p with
  | word s => exact after _ column
  | column key => exact ⟨_, rfl⟩
  | table name => exact after _ column
  | operand v | constant v => exact ⟨column, rfl⟩

end Piece

namespace Fragment

variable {b : Backend}

theorem placeAfter_beside (d : Dialect) (f : Fragment) (column : String) :
    ∃ other, f.placeAfter d (.beside column) = .beside other := by
  induction f generalizing column with
  | nil => exact ⟨column, rfl⟩
  | cons p ps ih =>
    obtain ⟨here, first⟩ := p.placeAfter_beside d column
    obtain ⟨other, rest⟩ := ih here
    refine ⟨other, ?_⟩
    rw [← rest, ← first]
    rfl

theorem sites_word_cons {s : String} (plain : (Piece.word s).isPlain = true) (f : Fragment)
    (column : String) :
    sites b.dialect (.beside column) (.word s :: f) = f.sites b.dialect (.beside column) := by
  show [] ++ f.sites b.dialect ((Piece.word s).placeAfter b.dialect (.beside column)) = _
  rw [Piece.placeAfter_word b plain, List.nil_append]

theorem sites_column_cons (d : Dialect) (key column : String) (f : Fragment) :
    sites d (.beside column) (.column key :: f) = f.sites d (.beside key) := by
  show [] ++ f.sites d ((Place.beside column).next d (Sql.nameLexeme d key)) = _
  rw [Place.next, Sql.Lexeme.name?_nameLexeme]
  rfl

/-- A fragment without operands has no sites. -/
theorem sites_eq_nil {f : Fragment} (none : f.operands = []) (d : Dialect) (place : Place) :
    f.sites d place = [] :=
  List.map_eq_nil_iff.mp ((map_snd_sites d place f).trans none)

namespace Sited

theorem of_no_operands {f : Fragment} (spaced : f.WellSpaced) (none : f.operands = []) :
    f.Sited b [] :=
  ⟨spaced, fun column => sites_eq_nil none b.dialect (.beside column)⟩

theorem nil : Sited b [] [] := of_no_operands .nil rfl

theorem append {f g : Fragment} {xs ys : List (String × SqlValue)} (hf : Sited b f xs)
    (hg : Sited b g ys) (between : ∀ p ∈ f.getLast?, ∀ q ∈ g.head?, p.Apart q) :
    Sited b (f ++ g) (xs ++ ys) := by
  refine ⟨hf.spaced.append hg.spaced between, ?_⟩
  intro column
  obtain ⟨other, after⟩ := f.placeAfter_beside b.dialect column
  rw [sites_append, after, hf.sites, hg.sites]

theorem word_cons {s : String} {f : Fragment} {xs : List (String × SqlValue)}
    (plain : (Piece.word s).isPlain = true) (ends : (Piece.word s).endsApart = true)
    (hf : Sited b f xs) : Sited b (.word s :: f) xs :=
  ⟨hf.spaced.word_cons plain ends, fun column =>
    (sites_word_cons plain f column).trans (hf.sites column)⟩

theorem append_word {f g : Fragment} {s : String} {xs ys : List (String × SqlValue)}
    (hf : Sited b f xs) (starts : (Piece.word s).startsApart = true)
    (hg : Sited b (.word s :: g) ys) : Sited b (f ++ .word s :: g) (xs ++ ys) := by
  apply append hf hg
  intro p _ q hq
  obtain rfl : Piece.word s = q := by simpa using hq
  exact .inr starts

theorem separatedBy {separator : String} (separates : Piece.separates separator = true)
    {fs : List Fragment} {xss : List (List (String × SqlValue))}
    (each : List.Forall₂ (Sited b) fs xss) :
    Sited b (Fragment.separatedBy separator fs) xss.flatten := by
  obtain ⟨plain, starts, ends⟩ := Piece.separates_iff.mp separates
  induction each with
  | nil => exact nil
  | @cons f xs fs xss first others ih =>
    cases others with
    | nil => simpa [Fragment.separatedBy] using first
    | cons second others => exact append_word first starts (word_cons plain ends ih)

theorem commas {fs : List Fragment} {xss : List (List (String × SqlValue))}
    (each : List.Forall₂ (Sited b) fs xss) : Sited b (Fragment.commas fs) xss.flatten :=
  separatedBy (by decide) each

theorem commas_of_none {fs : List Fragment} (each : ∀ f ∈ fs, Sited b f []) :
    Sited b (Fragment.commas fs) [] := by
  have none : List.Forall₂ (Sited b) fs (fs.map fun _ => []) := by
    rw [List.forall₂_map_right_iff, List.forall₂_same]
    exact each
  have h := commas none
  rwa [List.flatten_eq_nil_iff.mpr (by simp)] at h

theorem parenthesized {f : Fragment} {xs : List (String × SqlValue)} (hf : Sited b f xs) :
    Sited b f.parenthesized xs := by
  have close : Sited b [.word ")"] [] := of_no_operands (.single (by decide)) rfl
  have closed := append_word hf (by decide) close
  rw [List.append_nil] at closed
  exact word_cons (by decide) (by decide) closed

/-- A column, a word and an operand. -/
theorem operand {s : String} (separates : Piece.separates s = true) (column : String)
    (v : SqlValue) : Sited b [.column column, .word s, .operand v] [(column, v)] := by
  obtain ⟨plain, starts, ends⟩ := Piece.separates_iff.mp separates
  constructor
  · exact .append_word (f := [.column column]) (.single rfl) starts
      (.word_cons plain ends (.single rfl))
  · intro other
    rw [sites_column_cons, sites_word_cons plain]
    rfl

end Sited

/-! ## Lists of values -/

/-- The operands of a list. -/
def values (vs : List SqlValue) : Fragment := commas (vs.map fun v => [.operand v])

theorem wellSpaced_values (vs : List SqlValue) : (values vs).WellSpaced := by
  refine .commas ?_
  intro f hf
  obtain ⟨v, _, rfl⟩ := List.mem_map.mp hf
  exact .single rfl

/-- The operands of a list all go to the column before it. -/
theorem sites_values (vs : List SqlValue) (column : String) :
    (values vs).sites b.dialect (.beside column) = vs.map fun v => (column, v) := by
  induction vs with
  | nil => rfl
  | cons v vs ih =>
    cases vs with
    | nil => rfl
    | cons w ws =>
      show (column, v) :: sites b.dialect (.beside column) (.word ", " :: values (w :: ws)) = _
      rw [sites_word_cons (by decide), ih]
      rfl

/-- A column, a word and a list of operands. -/
theorem sited_list {s : String} (separates : Piece.separates s = true) (column : String)
    (vs : List SqlValue) :
    Sited b ([.column column, .word s] ++ Fragment.parenthesized (values vs))
      (vs.map fun v => (column, v)) := by
  obtain ⟨plain, starts, ends⟩ := Piece.separates_iff.mp separates
  have listed := (wellSpaced_values vs).parenthesized
  constructor
  · exact .append_word (f := [.column column]) (.single rfl) starts (.word_cons plain ends listed)
  · intro other
    show sites _ _ (.column column :: .word s :: .word "(" :: (values vs ++ [.word ")"])) = _
    rw [sites_column_cons, sites_word_cons plain, sites_word_cons (by decide), sites_append,
      sites_values]
    rw [sites_eq_nil (f := [.word ")"]) rfl, List.append_nil]

end Fragment
end DocTable
