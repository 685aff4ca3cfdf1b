import AdaToC.Ada.Parameter
import AdaToC.Proofs.Text.Validity
import Mathlib.Data.List.TakeWhile

/-!
# Writing parameter lists

A parameter list can be laid out in many ways: white space may stand around every name and type, and
between the semicolons there may be text that declares nothing. `Layout.written` writes such a list
and `Layout.parameters` says what it declares; reading undoes writing.

Names and types are texts of any bytes. That white space can be told from a text next to it rests on
how characters are encoded: the first byte of a character never stands inside another one, so no
stray bytes in front of white space can run into it.
-/

namespace AdaToC

namespace Utf8

/-! ## Characters behind a text -/

/-- A character at the front of a text ends before another one begins. -/
theorem encode_isPrefix_of_append {c d : Char} {b : UInt8} {s t : Bytes}
    (h : encode c <+: b :: s ++ encode d ++ t) : encode c <+: b :: s := by
  obtain ⟨lead, tail, hencode, -, htail⟩ := exists_lead_tail c
  obtain ⟨lead', tail', hencode', hlead', -⟩ := exists_lead_tail d
  obtain ⟨rest, hrest⟩ := h
  rw [List.append_assoc] at hrest
  rcases List.append_eq_append_iff.mp hrest with ⟨more, hs, -⟩ | ⟨more, hc, hd⟩
  · exact ⟨more, hs.symm⟩
  · cases more with
    | nil => exact ⟨[], by rw [List.append_nil] at hc ⊢; exact hc⟩
    | cons x more =>
      -- the first byte of the second character would stand in the tail of the first one
      rw [hencode', List.cons_append, List.cons_append] at hd
      obtain ⟨rfl, -⟩ := List.cons.inj hd
      rw [hencode, List.cons_append] at hc
      obtain ⟨-, rfl⟩ := List.cons.inj hc
      exact absurd (htail lead' (by simp)) hlead'

/-- A character is read as such behind any text. Induction on the length of the text in front. -/
theorem glyphs_append_encode (s : Bytes) (c : Char) (t : Bytes) :
    glyphs (s ++ encode c ++ t) = glyphs s ++ .char c :: glyphs t := by
  induction hn : s.length using Nat.strongRecOn generalizing s with
  | ind n ih =>
    subst hn
    cases s with
    | nil => exact glyphs_encode_append c t
    | cons b s =>
      cases hglyphs : glyphs (b :: s) with
      | nil => simp [glyphs, glyphsFrom] at hglyphs
      | cons g gs =>
        obtain ⟨rest, hrest, rfl⟩ := glyphs_eq_cons hglyphs
        cases g with
        | char d =>
          have hshort : rest.length < (b :: s).length := by
            have hpos := List.length_pos_iff.mpr (encode_ne_nil d)
            rw [hrest, List.length_append, Glyph.bytes]
            omega
          have hfront : b :: s ++ encode c ++ t = encode d ++ (rest ++ encode c ++ t) := by
            rw [hrest]
            simp [Glyph.bytes]
          rw [hfront, glyphs_encode_append, ih _ hshort rest rfl]
          rfl
        | stray d =>
          obtain ⟨rfl, rfl⟩ := List.cons.inj hrest
          have hstray : ∀ x, ¬ encode x <+: b :: s := by
            rintro x ⟨behind, hx⟩
            rw [← hx, glyphs_encode_append] at hglyphs
            cases hglyphs
          -- no character begins here once the other text stands behind it either
          cases hlong : glyphs (b :: s ++ encode c ++ t) with
          | nil => simp [glyphs, glyphsFrom] at hlong
          | cons g gs =>
            obtain ⟨behind, hbehind, rfl⟩ := glyphs_eq_cons hlong
            cases g with
            | char x =>
              exact absurd (encode_isPrefix_of_append ⟨behind, hbehind.symm⟩) (hstray x)
            | stray d =>
              obtain ⟨rfl, rfl⟩ := List.cons.inj hbehind
              show _ :: glyphs (s ++ encode c ++ t) = _
              rw [ih _ (Nat.lt_succ_self _) s rfl]
              rfl

theorem glyphs_append_encodeAll (s : Bytes) (cs : List Char) :
    glyphs (s ++ encodeAll cs) = glyphs s ++ cs.map .char := by
  induction cs generalizing s with
  | nil => simp [encodeAll]
  | cons c cs ih =>
    have htail := ih []
    rw [List.nil_append] at htail
    rw [encodeAll_cons, ← List.append_assoc, glyphs_append_encode, htail]
    rfl

end Utf8

/-! ## Trimming -/

/-- Whether a glyph is one that trimming takes away. -/
def Glyph.isWhite (g : Glyph) : Bool :=
  g.isChar && isBlank g.scalar

theorem Glyph.exists_of_isWhite {g : Glyph} (h : g.isWhite = true) :
    ∃ c, g = .char c ∧ isBlank c = true := by
  cases g with
  | char c => exact ⟨c, rfl, h⟩
  | stray b => cases h

namespace Bytes

/-- A text neither starts nor ends with white space. -/
def Trimmed (s : Bytes) : Prop :=
  ∀ c, isBlank c = true → ¬ Utf8.encode c <+: s ∧ ¬ Utf8.encode c <:+ s

/-- The first and the last glyph of a trimmed text are not white. -/
theorem trimmed_iff {s : Bytes} :
    Trimmed s ↔ (∀ g ∈ (Utf8.glyphs s).head?, g.isWhite = false) ∧
      ∀ g ∈ (Utf8.glyphs s).getLast?, g.isWhite = false := by
  constructor
  · intro h
    refine ⟨fun g hg => ?_, fun g hg => ?_⟩
    · rw [← Bool.not_eq_true]
      intro hwhite
      obtain ⟨c, rfl, hc⟩ := Glyph.exists_of_isWhite hwhite
      obtain ⟨gs, hgs⟩ := List.head?_eq_some_iff.mp hg
      obtain ⟨rest, hrest, -⟩ := Utf8.glyphs_eq_cons hgs
      exact (h c hc).1 ⟨rest, hrest.symm⟩
    · rw [← Bool.not_eq_true]
      intro hwhite
      obtain ⟨c, rfl, hc⟩ := Glyph.exists_of_isWhite hwhite
      obtain ⟨gs, hgs⟩ := List.getLast?_eq_some_iff.mp hg
      apply (h c hc).2
      refine ⟨gs.flatMap Glyph.bytes, ?_⟩
      rw [← Utf8.flatMap_bytes_glyphs s, hgs, List.flatMap_append]
      simp [Glyph.bytes]
  · rintro ⟨hhead, hlast⟩ c hc
    refine ⟨?_, ?_⟩
    · rintro ⟨rest, rfl⟩
      rw [Utf8.glyphs_encode_append] at hhead
      have hwhite := hhead (.char c) rfl
      simp [Glyph.isWhite, Glyph.isChar, Glyph.scalar, hc] at hwhite
    · rintro ⟨front, rfl⟩
      have hglyphs := Utf8.glyphs_append_encode front c []
      rw [List.append_nil] at hglyphs
      rw [hglyphs] at hlast
      have hwhite := hlast (.char c) (by simp [Utf8.glyphs, Utf8.glyphsFrom])
      simp [Glyph.isWhite, Glyph.isChar, Glyph.scalar, hc] at hwhite

instance (s : Bytes) : Decidable (Trimmed s) :=
  decidable_of_iff _ trimmed_iff.symm

end Bytes

/-- What is left of a list when both ends are stripped. -/
theorem strip_append {α : Type} {p : α → Bool} {front middle behind : List α}
    (hfront : ∀ x ∈ front, p x = true) (hbehind : ∀ x ∈ behind, p x = true)
    (hhead : ∀ x ∈ middle.head?, p x = false) (hlast : ∀ x ∈ middle.getLast?, p x = false) :
    (((front ++ middle ++ behind).dropWhile p).reverse.dropWhile p).reverse = middle := by
  rw [List.append_assoc, List.dropWhile_append_of_pos hfront]
  cases middle with
  | nil =>
    rw [List.nil_append, List.dropWhile_eq_nil_iff.mpr hbehind]
    rfl
  | cons x middle =>
    have hx := hhead x rfl
    obtain ⟨init, last, hinit⟩ : ∃ init last, x :: middle = init ++ [last] :=
      ⟨_, _, (List.dropLast_concat_getLast (List.cons_ne_nil x middle)).symm⟩
    have hend := hlast last (by rw [hinit]; simp)
    rw [List.cons_append, List.dropWhile_cons_of_neg (by simp [hx]), ← List.cons_append, hinit,
      List.reverse_append, List.dropWhile_append_of_pos (by simpa using hbehind),
      List.reverse_append, List.reverse_singleton, List.singleton_append,
      List.dropWhile_cons_of_neg (by simp [hend])]
    simp

/-- A text with white space around it. -/
structure Padded where
  before : List Char
  text : Bytes
  behind : List Char
  before_blank : ∀ c ∈ before, isBlank c = true
  behind_blank : ∀ c ∈ behind, isBlank c = true
  trimmed : text.Trimmed

namespace Padded

def written (p : Padded) : Bytes :=
  Utf8.encodeAll p.before ++ p.text ++ Utf8.encodeAll p.behind

theorem trim_written (p : Padded) : p.written.trim = p.text := by
  have hglyphs : Utf8.glyphs p.written =
      p.before.map .char ++ Utf8.glyphs p.text ++ p.behind.map .char := by
    rw [written, List.append_assoc, Utf8.glyphs_encodeAll_append, Utf8.glyphs_append_encodeAll,
      List.append_assoc]
  have hwhite : ∀ {cs : List Char}, (∀ c ∈ cs, isBlank c = true) →
      ∀ g ∈ cs.map Glyph.char, g.isWhite = true := by
    intro cs hcs g hg
    obtain ⟨c, hc, rfl⟩ := List.mem_map.mp hg
    exact hcs c hc
  obtain ⟨hhead, hlast⟩ := Bytes.trimmed_iff.mp p.trimmed
  have hstrip := strip_append (hwhite p.before_blank) (hwhite p.behind_blank) hhead hlast
  show ((((Utf8.glyphs p.written).dropWhile Glyph.isWhite).reverse.dropWhile
    Glyph.isWhite).reverse).flatMap Glyph.bytes = p.text
  rw [hglyphs, hstrip, Utf8.flatMap_bytes_glyphs]

/-- Of ASCII, white space holds only white space. -/
theorem not_mem_encodeAll {cs : List Char} (hcs : ∀ c ∈ cs, isBlank c = true) {b : UInt8}
    (hb : b < 0x80) (hmark : isBlank (Char.ofNat b.toNat) = false) : b ∉ Utf8.encodeAll cs := by
  intro hmem
  obtain ⟨c, hc, hbyte⟩ := List.mem_flatMap.mp hmem
  have hblank := hcs c hc
  rw [Utf8.eq_ofNat_of_mem_encode hb hbyte, hmark] at hblank
  cases hblank

theorem not_mem_written (p : Padded) {b : UInt8} (hb : b < 0x80)
    (hmark : isBlank (Char.ofNat b.toNat) = false) (h : b ∉ p.text) : b ∉ p.written := by
  simp [written, h, not_mem_encodeAll p.before_blank hb hmark,
    not_mem_encodeAll p.behind_blank hb hmark]

end Padded

theorem mem_dropWhile_of_mem {α : Type} {p : α → Bool} {x : α} {xs : List α} (hx : x ∈ xs)
    (hp : p x = false) : x ∈ xs.dropWhile p := by
  rw [← List.takeWhile_append_dropWhile (p := p) (l := xs), List.mem_append] at hx
  refine hx.resolve_left fun hfront => ?_
  rw [List.mem_takeWhile_imp hfront] at hp
  cases hp

/-- Trimming takes nothing of ASCII away but white space. -/
theorem Bytes.mem_trim_of_mem {s : Bytes} {b : UInt8} (hb : b < 0x80)
    (hmark : isBlank (Char.ofNat b.toNat) = false) (h : b ∈ s) : b ∈ s.trim := by
  rw [← Utf8.flatMap_bytes_glyphs s, List.mem_flatMap] at h
  obtain ⟨g, hg, hbyte⟩ := h
  have hwhite : g.isWhite = false := by
    cases g with
    | char c =>
      rw [Utf8.eq_ofNat_of_mem_encode hb hbyte]
      exact hmark
    | stray b => rfl
  refine List.mem_flatMap.mpr ⟨g, List.mem_reverse.mpr ?_, hbyte⟩
  exact mem_dropWhile_of_mem (List.mem_reverse.mpr (mem_dropWhile_of_mem hg hwhite)) hwhite

namespace Ada.Parameter

/-! ## Groups -/

/-- Names with their type, and the white space around each of them. -/
structure Group where
  names : List Padded
  type : Padded
  names_ne_nil : names ≠ []
  /-- No comma, semicolon or colon stands in a name. -/
  names_plain : ∀ n ∈ names, 0x2C ∉ n.text ∧ 0x3B ∉ n.text ∧ 0x3A ∉ n.text
  /-- No semicolon stands in the type. A colon may. -/
  type_plain : 0x3B ∉ type.text

namespace Group

variable (g : Group)

/-- The names with commas between them, a colon and the type. -/
def written : Bytes :=
  Bytes.joinWith [0x2C] (g.names.map Padded.written) ++ 0x3A :: g.type.written

def parameters : List Parameter :=
  g.names.map fun n => ⟨n.text, g.type.text⟩

theorem not_mem_names {b : UInt8} (hb : b < 0x80) (hmark : isBlank (Char.ofNat b.toNat) = false)
    (hcomma : b ≠ 0x2C) (h : ∀ n ∈ g.names, b ∉ n.text) :
    b ∉ Bytes.joinWith [0x2C] (g.names.map Padded.written) := by
  intro hmem
  rcases Bytes.mem_joinWith hmem with hsep | ⟨piece, hpiece, hmem⟩
  · exact hcomma (List.mem_singleton.mp hsep)
  · obtain ⟨n, hn, rfl⟩ := List.mem_map.mp hpiece
    exact n.not_mem_written hb hmark (h n hn) hmem

theorem split_names :
    (Bytes.joinWith [0x2C] (g.names.map Padded.written)).split 0x2C =
      g.names.map Padded.written := by
  obtain ⟨first, rest, hnames⟩ := List.exists_cons_of_ne_nil g.names_ne_nil
  have hcomma : ∀ piece ∈ g.names.map Padded.written, 0x2C ∉ piece := by
    intro piece hpiece
    obtain ⟨n, hn, rfl⟩ := List.mem_map.mp hpiece
    exact n.not_mem_written (by decide) (by decide) (g.names_plain n hn).1
  rw [hnames, List.map_cons] at hcomma ⊢
  rw [Bytes.split_joinWith List.not_mem_nil hcomma]
  simp

theorem ofGroup_written : ofGroup g.written = g.parameters := by
  have hcut : g.written.cut? 0x3A =
      some (Bytes.joinWith [0x2C] (g.names.map Padded.written), g.type.written) :=
    Bytes.cut?_append_cons (g.not_mem_names (by decide) (by decide) (by decide)
      fun n hn => (g.names_plain n hn).2.2) _
  unfold ofGroup
  simp only [hcut, g.split_names, List.map_map, parameters, g.type.trim_written]
  exact List.map_congr_left fun n _ => by simp [n.trim_written]

theorem semicolon_not_mem_written : 0x3B ∉ g.written := by
  have hnames := g.not_mem_names (b := 0x3B) (by decide) (by decide) (by decide)
    fun n hn => (g.names_plain n hn).2.1
  have htype := g.type.not_mem_written (b := 0x3B) (by decide) (by decide) g.type_plain
  simp [written, hnames, htype]

end Group

/-! ## Lists of groups -/

/-- What may stand between two semicolons: a group, or text that declares nothing. -/
inductive Layout where
  | group (g : Group)
  | silent (s : Bytes) (semicolon : 0x3B ∉ s) (colon : 0x3A ∉ s)

namespace Layout

def written : Layout → Bytes
  | .group g => g.written
  | .silent s _ _ => s

/-- The parameters that are declared there. -/
def parameters : Layout → List Parameter
  | .group g => g.parameters
  | .silent _ _ _ => []

theorem semicolon_not_mem_written (x : Layout) : 0x3B ∉ x.written := by
  cases x with
  | group g => exact g.semicolon_not_mem_written
  | silent s semicolon colon => exact semicolon

theorem ofGroup_written (x : Layout) : ofGroup x.written = x.parameters := by
  cases x with
  | group g => exact g.ofGroup_written
  | silent s semicolon colon =>
    have hcut : s.cut? 0x3A = none := Bytes.cut?_eq_none_iff.mpr colon
    simp only [written, parameters, ofGroup, hcut]

end Layout

/-- No case is needed for a blank list: it has one group, in which there is no colon. -/
theorem parse_eq_flatMap (raw : Bytes) : parse raw = (raw.split 0x3B).flatMap ofGroup := by
  unfold parse
  split
  next hblank =>
    have hmarks : ∀ b : UInt8, b < 0x80 → isBlank (Char.ofNat b.toNat) = false → b ∉ raw := by
      intro b hb hmark hmem
      have htrim := Bytes.mem_trim_of_mem hb hmark hmem
      rw [List.isEmpty_iff.mp hblank] at htrim
      cases htrim
    have hcut : raw.cut? 0x3A = none :=
      Bytes.cut?_eq_none_iff.mpr (hmarks 0x3A (by decide) (by decide))
    rw [Bytes.split_of_not_mem (hmarks 0x3B (by decide) (by decide)), List.flatMap_singleton]
    simp only [ofGroup, hcut]
  · rfl

theorem parse_append (r₁ r₂ : Bytes) : parse (r₁ ++ 0x3B :: r₂) = parse r₁ ++ parse r₂ := by
  simp only [parse_eq_flatMap, Bytes.split_append, List.flatMap_append]

theorem parse_layout (x : Layout) : parse x.written = x.parameters := by
  rw [parse_eq_flatMap, Bytes.split_of_not_mem x.semicolon_not_mem_written, List.flatMap_singleton,
    x.ofGroup_written]

/-- Parts are read one after the other. -/
theorem parse_joinWith (parts : List Layout) :
    parse (Bytes.joinWith [0x3B] (parts.map Layout.written)) =
      parts.flatMap Layout.parameters := by
  induction parts with
  | nil => rfl
  | cons x rest ih =>
    cases rest with
    | nil =>
      rw [List.flatMap_singleton]
      exact parse_layout x
    | cons y rest =>
      rw [List.map_cons, List.map_cons, Bytes.joinWith, List.append_assoc, List.singleton_append,
        parse_append, parse_layout, ← List.map_cons, ih, ← List.flatMap_cons]
      exact List.cons_ne_nil _ _

/-- Reading a parameter list undoes writing it. A list is read part by part; a group is read as the
names it was written with, each with the type, whatever white space stands around them; text without
a semicolon and a colon declares nothing. So a list of groups, with such text between them, is read
as the parameters of the groups in order. -/
theorem parse_inverts_writing :
    (∀ r₁ r₂, parse (r₁ ++ 0x3B :: r₂) = parse r₁ ++ parse r₂) ∧
      (∀ g : Group, parse g.written = g.parameters) ∧
      (∀ s, 0x3B ∉ s → 0x3A ∉ s → parse s = []) ∧
      ∀ parts : List Layout, parse (Bytes.joinWith [0x3B] (parts.map Layout.written)) =
        parts.flatMap Layout.parameters := by
  refine ⟨parse_append, fun g => ?_, fun s hsemicolon hcolon => ?_, parse_joinWith⟩
  · exact parse_layout (.group g)
  · exact parse_layout (.silent s hsemicolon hcolon)

/-- A name of stray bytes between ideographic spaces, one that is empty, a type with a default
value, and text without a colon in front of the group and behind it. -/
theorem parse_inverts_writing_stray_bytes :
    let name : Padded :=
      { before := ['\u3000'], text := [0x80, 0x41, 0xE3, 0x80], behind := ['\u3000', '\n']
        before_blank := List.all_eq_true.mp (by decide)
        behind_blank := List.all_eq_true.mp (by decide), trimmed := by decide }
    let unnamed : Padded :=
      { before := [' '], text := [], behind := [], before_blank := List.all_eq_true.mp (by decide)
        behind_blank := List.all_eq_true.mp (by decide), trimmed := by decide }
    let type : Padded :=
      { before := [], text := bytes "in out Float := 0.0", behind := ['\u0085']
        before_blank := List.all_eq_true.mp (by decide)
        behind_blank := List.all_eq_true.mp (by decide), trimmed := by decide +kernel }
    let g : Group := ⟨[name, unnamed], type, List.cons_ne_nil _ _, by decide, by decide +kernel⟩
    let parts : List Layout :=
      [.silent (bytes " garbage") (by decide +kernel) (by decide +kernel), .group g,
        .silent [] (by decide) (by decide)]
    Bytes.joinWith [0x3B] (parts.map Layout.written) =
        bytes " garbage;" ++ bytes "\u3000" ++ [0x80, 0x41, 0xE3, 0x80] ++
          bytes "\u3000\n, :in out Float := 0.0\u0085;" ∧
      parse (Bytes.joinWith [0x3B] (parts.map Layout.written)) =
        [⟨[0x80, 0x41, 0xE3, 0x80], bytes "in out Float := 0.0"⟩,
          ⟨[], bytes "in out Float := 0.0"⟩] ∧
      parse (bytes " garbage") = [] := by
  intro name unnamed type g parts
  obtain ⟨-, -, hsilent, hparts⟩ := parse_inverts_writing
  exact ⟨by decide +kernel, hparts parts,
    hsilent (bytes " garbage") (by decide +kernel) (by decide +kernel)⟩

end Ada.Parameter

end AdaToC
