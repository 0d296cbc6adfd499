import DocTable.Proofs.Statement.Sited
import DocTable.Proofs.Table.Request

/-!
# Fragments of whole statements

A statement that binds its values carries those that its fragment has as operands
(`Carries.statement`).
-/

namespace DocTable
set_option autoImplicit false
open Sql (Place)

namespace Fragment

/-- A well spaced fragment that starts with a word, and the given values as its operands,
each at its column. -/
structure Carries (b : Backend) (f : Fragment) (given : List Given) : Prop where
  spaced : f.WellSpaced
  fits : ∀ g ∈ given, g.Fits
  sites : ∃ s rest, f = .word s :: rest ∧
    f.sites b.dialect (Place.first (Sql.lexemes b.dialect s.toList)) = given.map Given.site

/-- Fragments of statements whose values stand beside their columns. -/
theorem Sited.carries {b : Backend} {s : String} {rest : Fragment} {given : List Given}
    (first : Place.first (Sql.lexemes b.dialect s.toList) = .beside "")
    (sited : Sited b (.word s :: rest) (given.map Given.site)) (fits : ∀ g ∈ given, g.Fits) :
    Carries b (.word s :: rest) given := by
  refine ⟨sited.spaced, fits, s, rest, rfl, ?_⟩
  rw [first]
  exact sited.sites ""

namespace Carries

variable {b : Backend} {style : Style} {f : Fragment} {given : List Given}

theorem first_lexemes (hb : style.dialect = b.dialect) {s : String} {rest : Fragment}
    (plain : (Piece.word s).isPlain = true) (before : Nat) :
    Place.first (lexemes style before (.word s :: rest)) =
      Place.first (Sql.lexemes b.dialect s.toList) := by
  have nonempty : Sql.lexemes b.dialect s.toList ≠ [] := by
    intro empty
    have join := Sql.join_lexemes b.dialect s.toList
    rw [empty] at join
    exact (Piece.plain_of_isPlain plain).1 join.symm
  rw [lexemes, Piece.lexemes, Piece.text, hb, Place.first, Place.first,
    List.head?_append_of_ne_nil _ nonempty]

/-- The statement's placeholders stand at the columns of the values that are bound. -/
theorem sites_statement (hb : style.dialect = b.dialect) (h : Carries b f given) :
    Sql.sites style.dialect (f.statement style).sql =
      numbered style 0 (given.map Given.site) := by
  obtain ⟨s, rest, rfl, sites⟩ := h.sites
  have plain := h.spaced.plain
  rw [Sql.sites, statement, lexemes_text b hb h.spaced, sitesFrom_lexemes b hb plain,
    first_lexemes hb (plain _ List.mem_cons_self), hb, sites]

theorem operands_eq (h : Carries b f given) : f.operands = given.map Given.typed := by
  obtain ⟨s, rest, rfl, sites⟩ := h.sites
  have columns := map_snd_sites b.dialect (Place.first (Sql.lexemes b.dialect s.toList))
    (.word s :: rest)
  rw [sites, List.map_map] at columns
  exact columns.symm

theorem binds_iff (bindsValues : style.inline = false) (v : SqlValue) :
    style.binds v = !v.isNull := by
  simp [Style.binds, bindsValues]

theorem params_statement (bindsValues : style.inline = false) (h : Carries b f given) :
    (f.statement style).params = (Given.present given).map Given.typed := by
  show bound style f = _
  rw [bound_eq_filter, h.operands_eq, List.filter_map, Given.present]
  congr 2
  funext g
  exact binds_iff bindsValues g.typed

/-- A fragment's statement carries the values of the fragment when it binds values. -/
theorem statement (hb : style.dialect = b.dialect) (bindsValues : style.inline = false)
    (h : Carries b f given) : (f.statement style).Carries style.dialect given := by
  have params := h.params_statement bindsValues
  have present : (given.map Given.site).filter (fun s => style.binds s.2) =
      (Given.present given).map Given.site := by
    rw [List.filter_map, Given.present]
    congr 2
    funext g
    exact binds_iff bindsValues g.typed
  have sites : Sql.sites style.dialect (f.statement style).sql =
      (Given.present given).mapIdx
        fun k g => (g.field.key, style.dialect.placeholder (k + 1)) := by
    rw [h.sites_statement hb, numbered, present]
    apply List.ext_getElem
    · simp
    · intro k _ _
      simp [Given.site]
  refine ⟨h.fits, params, ?_, ?_, sites⟩
  · rw [params]
    intro null
    obtain ⟨g, hg, e⟩ := List.mem_map.mp null
    have notNull := (List.mem_filter.mp hg).2
    rw [e] at notNull
    cases notNull
  · rw [← Sql.map_snd_sites, sites, params]
    apply List.ext_getElem
    · simp
    · intro k _ _
      simp

end Carries
end Fragment
end DocTable
