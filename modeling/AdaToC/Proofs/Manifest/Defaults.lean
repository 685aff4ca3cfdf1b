import AdaToC.Proofs.Manifest
import AdaToC.Proofs.Text.Characters
import AdaToC.Proofs.Toml.Distinct

/-!
# The settings of a manifest

A manifest has nine settings, each of them a name in a section. The document gives a setting under
every spelling of the two names that differs in letter case only, and one of what it gives counts.
What is left out, and a text that is left empty, has a default. A list and a switch cannot be told
from one that was left out by their values, so it is asked whether the document has the two names in
just the spelling of the setting. The two ways to read a document agree on texts, and on documents
that spell the names as the settings do; otherwise a list or a switch that was given is lost.
-/

namespace AdaToC

namespace Manifest

open Toml

/-! ## Settings -/

/-- The sections of a manifest. -/
inductive Heading where
  | source
  | output
  | compare
  deriving DecidableEq, Repr

def Heading.name : Heading → Bytes
  | source => bytes "source"
  | output => bytes "output"
  | compare => bytes "compare"

inductive Setting where
  | sourceDir
  | sourceFiles
  | sourceEncoding
  | outputDir
  | outputHeader
  | outputImplementation
  | outputCanonicalHeader
  | compareEnabled
  | compareReference
  deriving DecidableEq, Repr

/-- What a setting is set to. -/
inductive Stored where
  | text (s : Bytes)
  | texts (l : List Bytes)
  | switch (b : Bool)
  deriving DecidableEq, Repr

def stored (m : Manifest) : Setting → Stored
  | .sourceDir => .text m.source.dir
  | .sourceFiles => .texts m.source.files
  | .sourceEncoding => .text m.source.encoding
  | .outputDir => .text m.output.dir
  | .outputHeader => .text m.output.header
  | .outputImplementation => .text m.output.implementation
  | .outputCanonicalHeader => .text m.output.canonicalHeader
  | .compareEnabled => .switch m.compare.enabled
  | .compareReference => .text m.compare.reference

/-- The entries of a table. -/
def entries : Node → Entries
  | .table es => es
  | _ => []

namespace Setting

/-- The section of a setting. -/
def heading : Setting → Heading
  | sourceDir | sourceFiles | sourceEncoding => .source
  | outputDir | outputHeader | outputImplementation | outputCanonicalHeader => .output
  | compareEnabled | compareReference => .compare

/-- The name of a setting in its section. -/
def name : Setting → Bytes
  | sourceDir | outputDir => bytes "dir"
  | sourceFiles => bytes "files"
  | sourceEncoding => bytes "encoding"
  | outputHeader => bytes "header"
  | outputImplementation => bytes "implementation"
  | outputCanonicalHeader => bytes "canonical-header"
  | compareEnabled => bytes "enabled"
  | compareReference => bytes "reference"

/-- The value of a setting that is written as some part of a document. -/
def read : Setting → Node → Option Stored
  | sourceFiles, n => (texts? n).map .texts
  | compareEnabled, n => (boolean? n).map .switch
  | _, n => (text? n).map .text

/-- What a manifest without a document has. -/
def unset (s : Setting) : Stored :=
  stored {} s

/-- What a project without a manifest has. -/
def default (s : Setting) : Stored :=
  (Manifest.default []).stored s

/-- The manifest with a setting set. A value of another kind than that of the setting does
nothing. -/
def put : Setting → Stored → Manifest → Manifest
  | sourceDir, .text v, m => { m with source := { m.source with dir := v } }
  | sourceFiles, .texts v, m => { m with source := { m.source with files := v } }
  | sourceEncoding, .text v, m => { m with source := { m.source with encoding := v } }
  | outputDir, .text v, m => { m with output := { m.output with dir := v } }
  | outputHeader, .text v, m => { m with output := { m.output with header := v } }
  | outputImplementation, .text v, m => { m with output := { m.output with implementation := v } }
  | outputCanonicalHeader, .text v, m => { m with output := { m.output with canonicalHeader := v } }
  | compareEnabled, .switch v, m => { m with compare := { m.compare with enabled := v } }
  | compareReference, .text v, m => { m with compare := { m.compare with reference := v } }
  | _, _, m => m

/-- What an entry of the section gives for a setting. -/
def givenIn (s : Setting) (e : Bytes × Node) : List Node :=
  if e.1.equalFold s.name then [e.2] else []

/-- What an entry of the document gives for a setting. -/
def givenBy (s : Setting) (e : Bytes × Node) : List Node :=
  if e.1.equalFold s.heading.name then (entries e.2).flatMap s.givenIn else []

/-- All that a document gives for a setting, in any spelling of its names. -/
def given (s : Setting) (document : Entries) : List Node :=
  document.flatMap s.givenBy

/-- The document has the names of the setting just as they are. -/
def Spelled (s : Setting) (document : Entries) : Prop :=
  ∃ es n, (s.heading.name, .table es) ∈ document ∧ (s.name, n) ∈ es

/-- The document gives the setting in no other spelling. -/
def OneSpelling (s : Setting) (document : Entries) : Prop :=
  ∀ k es, (k, .table es) ∈ document → k.equalFold s.heading.name = true →
    ∀ k' n, (k', n) ∈ es → k'.equalFold s.name = true → k = s.heading.name ∧ k' = s.name

/-- A value that no default takes the place of. -/
def Kept (s : Setting) (document : Entries) : Stored → Prop
  | .text v => v ≠ []
  | .texts _ => s.Spelled document
  | .switch _ => s.Spelled document

end Setting

/-! ## What a document sets -/

/-- One of some parts of a document takes the place of the value before, if there are any. -/
def Overwritten (read : Node → Option Stored) (nodes : List Node) (before after : Stored) : Prop :=
  nodes = [] ∧ after = before ∨ ∃ n ∈ nodes, read n = some after

variable {read : Node → Option Stored} {nodes : List Node} {before after : Stored}

theorem overwritten_nil : Overwritten read [] before before :=
  Or.inl ⟨rfl, rfl⟩

theorem overwritten_singleton {n : Node} (h : read n = some after) :
    Overwritten read [n] before after :=
  Or.inr ⟨n, List.mem_singleton_self n, h⟩

theorem Overwritten.append {later : List Node} {final : Stored}
    (h : Overwritten read nodes before after) (hlater : Overwritten read later after final) :
    Overwritten read (nodes ++ later) before final := by
  rcases hlater with ⟨rfl, rfl⟩ | ⟨n, hn, hread⟩
  · rwa [List.append_nil]
  · exact Or.inr ⟨n, List.mem_append_right _ hn, hread⟩

theorem Overwritten.perm {nodes' : List Node} (h : Overwritten read nodes before after)
    (hperm : nodes.Perm nodes') : Overwritten read nodes' before after := by
  rcases h with ⟨rfl, hafter⟩ | ⟨n, hn, hread⟩
  · exact Or.inl ⟨hperm.nil_eq.symm, hafter⟩
  · exact Or.inr ⟨n, hperm.mem_iff.mp hn, hread⟩

theorem Overwritten.after_cases (h : Overwritten read nodes before after) :
    (nodes = [] → after = before) ∧ (nodes ≠ [] → ∃ n ∈ nodes, read n = some after) := by
  rcases h with ⟨rfl, hafter⟩ | ⟨n, hn, hread⟩
  · exact ⟨fun _ => hafter, fun hne => absurd rfl hne⟩
  · exact ⟨fun hnil => absurd hnil (List.ne_nil_of_mem hn), fun _ => ⟨n, hn, hread⟩⟩

/-- What is set entry after entry is set by an entry that gives it. -/
theorem overwritten_foldlM {α : Type} {f : α → Bytes → Node → Option α} (view : α → Stored)
    (given : Bytes × Node → List Node)
    (hstep : ∀ {a a' : α} {e : Bytes × Node}, f a e.1 e.2 = some a' →
      Overwritten read (given e) (view a) (view a'))
    {es : Entries} {a a' : α} (h : es.foldlM (fun a (key, n) => f a key n) a = some a') :
    Overwritten read (es.flatMap given) (view a) (view a') := by
  induction es generalizing a with
  | nil =>
    cases h
    exact overwritten_nil
  | cons e rest ih =>
    rw [List.foldlM_cons, Option.bind_eq_bind, Option.bind_eq_some_iff] at h
    obtain ⟨next, hnext, h⟩ := h
    rw [List.flatMap_cons]
    exact (hstep hnext).append (ih h)

/-! ## One entry of a section -/

variable {m m' : Manifest} {e : Bytes × Node}

namespace Setting

theorem stored_put {s : Setting} {n : Node} {v : Stored} (h : s.read n = some v) (m : Manifest) :
    (s.put v m).stored s = v := by
  cases s <;> obtain ⟨w, -, rfl⟩ := Option.map_eq_some_iff.mp h <;> rfl

theorem stored_put_of_ne {s other : Setting} (h : other ≠ s) (v : Stored) (m : Manifest) :
    (s.put v m).stored other = m.stored other := by
  cases s <;> cases v <;> first | rfl | (cases other <;> first | rfl | exact absurd rfl h)

end Setting

/-- What an entry of a section can do: it sets the setting whose name it has, or nothing. -/
inductive SetsOne (heading : Heading) (e : Bytes × Node) (m m' : Manifest) : Prop where
  | writes (s : Setting) (v : Stored) (hheading : s.heading = heading)
      (hname : e.1.equalFold s.name = true) (hread : s.read e.2 = some v) (hput : m' = s.put v m)
  | passes (hnone : ∀ s : Setting, s.heading = heading → ¬ e.1.equalFold s.name = true)
      (hsame : m' = m)

/-- A key whose value is read and stored, where `embed` puts the section into its manifest. -/
theorem setsOne_of_map {α β : Type} {read? : Option α} {store : α → β} {wrap : α → Stored}
    {embed : β → Manifest} {b : β} (s : Setting) (hname : e.1.equalFold s.name = true)
    (hread : s.read e.2 = read?.map wrap) (hput : ∀ v, embed (store v) = s.put (wrap v) m)
    (h : read?.map store = some b) : SetsOne s.heading e m (embed b) := by
  obtain ⟨v, hv, rfl⟩ := Option.map_eq_some_iff.mp h
  exact .writes s (wrap v) rfl hname (by rw [hread, hv]; rfl) (hput v)

theorem setsOne_source {s s' : SourceSection} (h : SourceSection.set s e.1 e.2 = some s') :
    SetsOne .source e { m with source := s } { m with source := s' } := by
  let embed (s : SourceSection) : Manifest := { m with source := s }
  show SetsOne .source e (embed s) (embed s')
  unfold SourceSection.set at h
  split at h
  next hname => exact setsOne_of_map .sourceDir hname rfl (fun _ => rfl) h
  next hdir =>
  split at h
  next hname => exact setsOne_of_map .sourceFiles hname rfl (fun _ => rfl) h
  next hfiles =>
  split at h
  next hname => exact setsOne_of_map .sourceEncoding hname rfl (fun _ => rfl) h
  next hencoding =>
    cases h
    refine .passes (fun s hs => ?_) rfl
    cases s with
    | sourceDir => exact hdir
    | sourceFiles => exact hfiles
    | sourceEncoding => exact hencoding
    | _ => cases hs

theorem setsOne_output {o o' : OutputSection} (h : OutputSection.set o e.1 e.2 = some o') :
    SetsOne .output e { m with output := o } { m with output := o' } := by
  let embed (o : OutputSection) : Manifest := { m with output := o }
  show SetsOne .output e (embed o) (embed o')
  unfold OutputSection.set at h
  split at h
  next hname => exact setsOne_of_map .outputDir hname rfl (fun _ => rfl) h
  next hdir =>
  split at h
  next hname => exact setsOne_of_map .outputHeader hname rfl (fun _ => rfl) h
  next hheader =>
  split at h
  next hname => exact setsOne_of_map .outputImplementation hname rfl (fun _ => rfl) h
  next himplementation =>
  split at h
  next hname => exact setsOne_of_map .outputCanonicalHeader hname rfl (fun _ => rfl) h
  next hcanonical =>
    cases h
    refine .passes (fun s hs => ?_) rfl
    cases s with
    | outputDir => exact hdir
    | outputHeader => exact hheader
    | outputImplementation => exact himplementation
    | outputCanonicalHeader => exact hcanonical
    | _ => cases hs

theorem setsOne_compare {c c' : CompareSection} (h : CompareSection.set c e.1 e.2 = some c') :
    SetsOne .compare e { m with compare := c } { m with compare := c' } := by
  let embed (c : CompareSection) : Manifest := { m with compare := c }
  show SetsOne .compare e (embed c) (embed c')
  unfold CompareSection.set at h
  split at h
  next hname => exact setsOne_of_map .compareEnabled hname rfl (fun _ => rfl) h
  next henabled =>
  split at h
  next hname => exact setsOne_of_map .compareReference hname rfl (fun _ => rfl) h
  next hreference =>
    cases h
    refine .passes (fun s hs => ?_) rfl
    cases s with
    | compareEnabled => exact henabled
    | compareReference => exact hreference
    | _ => cases hs

namespace Setting

/-- The names of the settings of one section differ in more than letter case. -/
theorem eq_of_folded_eq {s s' : Setting} (hheading : s.heading = s'.heading)
    (hname : s.name.folded = s'.name.folded) : s = s' := by
  cases s <;> cases s' <;>
    first | rfl | exact absurd hheading (by decide) | exact absurd hname (by decide)

end Setting

theorem SetsOne.overwritten {heading : Heading} (h : SetsOne heading e m m') {s : Setting}
    (hs : s.heading = heading) : Overwritten s.read (s.givenIn e) (m.stored s) (m'.stored s) := by
  cases h with
  | writes s' v hheading hname hread hput =>
    by_cases heq : s = s'
    · subst heq
      unfold Setting.givenIn
      rw [if_pos hname, hput, Setting.stored_put hread]
      exact overwritten_singleton hread
    · -- the name is that of another setting of the section
      have hother : ¬ e.1.equalFold s.name = true := by
        intro h
        refine heq (Setting.eq_of_folded_eq (hs.trans hheading.symm) ?_)
        rw [← Bytes.equalFold_iff.mp h, ← Bytes.equalFold_iff.mp hname]
      unfold Setting.givenIn
      rw [if_neg hother, hput, Setting.stored_put_of_ne heq]
      exact overwritten_nil
  | passes hnone hsame =>
    unfold Setting.givenIn
    rw [if_neg (hnone s hs), hsame]
    exact overwritten_nil

/-- The settings of other sections stay. -/
theorem SetsOne.stored_eq {heading : Heading} (h : SetsOne heading e m m') {s : Setting}
    (hs : s.heading ≠ heading) : m'.stored s = m.stored s := by
  cases h with
  | writes s' v hheading hname hread hput =>
    rw [hput, Setting.stored_put_of_ne]
    rintro rfl
    exact hs hheading
  | passes hnone hsame => rw [hsame]

/-! ## All entries of a document -/

theorem Heading.eq_of_folded_eq {heading heading' : Heading}
    (h : heading.name.folded = heading'.name.folded) : heading = heading' := by
  cases heading <;> cases heading' <;> first | rfl | exact absurd h (by decide)

theorem foldlM_of_setAll {α : Type} {order : EntryOrder} {name : Bytes}
    {set : α → Bytes → Node → Option α} {a a' : α} {n : Node}
    (h : setAll order name set a n = some a') :
    (order.arrange [name] (entries n)).foldlM (fun a (key, n) => set a key n) a = some a' := by
  cases n with
  | table es => exact h
  | _ => cases h

/-- Setting the keys of a section, where `embed` puts a section into its manifest. -/
theorem overwritten_setAll {α : Type} {order : EntryOrder} {set : α → Bytes → Node → Option α}
    {embed : α → Manifest} (heading : Heading)
    (hset : ∀ {a a' : α} {e : Bytes × Node}, set a e.1 e.2 = some a' →
      SetsOne heading e (embed a) (embed a'))
    (hkey : e.1.equalFold heading.name = true) {a a' : α}
    (h : setAll order e.1 set a e.2 = some a') (s : Setting) :
    Overwritten s.read (s.givenBy e) ((embed a).stored s) ((embed a').stored s) := by
  have hfold := foldlM_of_setAll h
  unfold Setting.givenBy
  by_cases hs : s.heading = heading
  · rw [if_pos (hs ▸ hkey)]
    refine Overwritten.perm ?_ ((order.perm [e.1] (entries e.2)).flatMap_right s.givenIn)
    exact overwritten_foldlM (fun a => (embed a).stored s) s.givenIn
      (fun hstep => (hset hstep).overwritten hs) hfold
  · -- the key is that of another section, where nothing is given and nothing is set
    have hother : ¬ e.1.equalFold s.heading.name = true := by
      intro hkey'
      refine hs (Heading.eq_of_folded_eq ?_)
      rw [← Bytes.equalFold_iff.mp hkey, ← Bytes.equalFold_iff.mp hkey']
    have hnothing : (order.arrange [e.1] (entries e.2)).flatMap
        (fun _ => ([] : List Node)) = [] := by simp
    rw [if_neg hother, ← hnothing]
    refine overwritten_foldlM (fun a => (embed a).stored s) _ (fun hstep => ?_) hfold
    rw [(hset hstep).stored_eq hs]
    exact overwritten_nil

theorem overwritten_setSection {order : EntryOrder} (h : setSection order m e.1 e.2 = some m')
    (s : Setting) : Overwritten s.read (s.givenBy e) (m.stored s) (m'.stored s) := by
  unfold setSection at h
  split at h
  next hkey =>
    obtain ⟨source, hsource, rfl⟩ := Option.map_eq_some_iff.mp h
    exact overwritten_setAll .source setsOne_source hkey hsource s
  next hsource =>
  split at h
  next hkey =>
    obtain ⟨output, houtput, rfl⟩ := Option.map_eq_some_iff.mp h
    exact overwritten_setAll .output setsOne_output hkey houtput s
  next houtput =>
  split at h
  next hkey =>
    obtain ⟨compare, hcompare, rfl⟩ := Option.map_eq_some_iff.mp h
    exact overwritten_setAll .compare setsOne_compare hkey hcompare s
  next hcompare =>
    cases h
    have hother : ¬ e.1.equalFold s.heading.name = true := by
      cases s.heading with
      | source => exact hsource
      | output => exact houtput
      | compare => exact hcompare
    unfold Setting.givenBy
    rw [if_neg hother]
    exact overwritten_nil

/-- A setting has what the document gives for it, in whatever order its tables are gone through. -/
theorem overwritten_ofDocument {order : EntryOrder} {document : Entries}
    (h : ofDocument? order document = some m) (s : Setting) :
    Overwritten s.read (s.given document) s.unset (m.stored s) := by
  have hfold := overwritten_foldlM (fun m => m.stored s) s.givenBy
    (fun hstep => overwritten_setSection hstep s) h
  exact hfold.perm ((order.perm [] document).flatMap_right s.givenBy)

/-! ## Defaults -/

variable {document : Entries} {s : Setting}

/-- The exact names are in a document just if looking them up gives something. -/
theorem spelled_iff_defines (h : document.Distinct) :
    s.Spelled document ↔ Entries.defines [s.heading.name, s.name] document = true := by
  constructor
  · rintro ⟨es, n, htable, hname⟩
    simp only [Entries.defines, h.lookup_of_mem htable]
    exact List.lookup_isSome_iff.mpr ⟨(s.name, n), hname, by simp⟩
  · intro hdefines
    simp only [Entries.defines] at hdefines
    split at hdefines
    next es hlookup =>
      obtain ⟨front, back, rfl, -⟩ := List.lookup_eq_some_iff.mp hlookup
      obtain ⟨⟨k, n⟩, hname, hk⟩ := List.lookup_isSome_iff.mp hdefines
      obtain rfl : s.name = k := by simpa using hk
      exact ⟨es, n, by simp, hname⟩
    · cases hdefines

theorem orElse_cases (v fallback : Bytes) :
    (v ≠ [] → Stored.text (v.orElse fallback) = .text v) ∧
      (¬ v ≠ [] → Stored.text (v.orElse fallback) = .text fallback) := by
  unfold Bytes.orElse
  cases v with
  | nil => exact ⟨fun h => absurd rfl h, fun _ => rfl⟩
  | cons b v => exact ⟨fun _ => rfl, fun h => absurd (List.cons_ne_nil b v) h⟩

/-- Defaults leave what is kept as it is and take the place of everything else. -/
theorem stored_withDefaults (h : document.Distinct) (m : Manifest) (s : Setting) :
    (s.Kept document (m.stored s) → (m.withDefaults document).stored s = m.stored s) ∧
      (¬ s.Kept document (m.stored s) → (m.withDefaults document).stored s = s.default) := by
  cases s with
  | sourceFiles =>
    have hspelled : Setting.Spelled .sourceFiles document ↔ _ := spelled_iff_defines h
    exact ⟨fun hkept => congrArg Stored.texts (if_pos (hspelled.mp hkept)),
      fun hlost => congrArg Stored.texts (if_neg (mt hspelled.mpr hlost))⟩
  | compareEnabled =>
    have hspelled : Setting.Spelled .compareEnabled document ↔ _ := spelled_iff_defines h
    exact ⟨fun hkept => congrArg Stored.switch (if_pos (hspelled.mp hkept)),
      fun hlost => congrArg Stored.switch (if_neg (mt hspelled.mpr hlost))⟩
  | _ => exact orElse_cases _ _

theorem mem_entries_iff {n : Node} {x : Bytes × Node} :
    x ∈ entries n ↔ ∃ es, n = .table es ∧ x ∈ es := by
  cases n <;> simp [entries]

theorem Setting.mem_given_iff {n : Node} : n ∈ s.given document ↔
    ∃ k es k', (k, .table es) ∈ document ∧ k.equalFold s.heading.name = true ∧
      (k', n) ∈ es ∧ k'.equalFold s.name = true := by
  simp only [Setting.given, Setting.givenBy, Setting.givenIn, List.mem_flatMap,
    List.mem_ite_nil_right, List.mem_singleton, mem_entries_iff]
  constructor
  · rintro ⟨⟨k, part⟩, hpart, hk, ⟨k', n'⟩, ⟨es, rfl, hn⟩, hk', rfl⟩
    exact ⟨k, es, k', hpart, hk, hn, hk'⟩
  · rintro ⟨k, es, k', hpart, hk, hn, hk'⟩
    exact ⟨(k, .table es), hpart, hk, (k', n), ⟨es, rfl, hn⟩, hk', rfl⟩

theorem Setting.Spelled.given_ne_nil (h : s.Spelled document) : s.given document ≠ [] := by
  obtain ⟨es, n, htable, hname⟩ := h
  have hgiven : n ∈ s.given document := Setting.mem_given_iff.mpr
    ⟨_, es, _, htable, Bytes.equalFold_refl _, hname, Bytes.equalFold_refl _⟩
  exact List.ne_nil_of_mem hgiven

theorem Setting.OneSpelling.spelled (h : s.OneSpelling document) (hgiven : s.given document ≠ []) :
    s.Spelled document := by
  obtain ⟨n, hn⟩ := List.exists_mem_of_ne_nil _ hgiven
  obtain ⟨k, es, k', htable, hk, hname, hk'⟩ := Setting.mem_given_iff.mp hn
  obtain ⟨rfl, rfl⟩ := h k es htable hk k' n hname hk'
  exact ⟨es, n, htable, hname⟩

/-- A setting that is not given is not kept. -/
theorem not_kept_of_given_eq_nil {order : EntryOrder} (hraw : ofDocument? order document = some m)
    (h : s.given document = []) : ¬ s.Kept document (m.stored s) := by
  have hstored : m.stored s = s.unset := (overwritten_ofDocument hraw s).after_cases.1 h
  have hspelled : ¬ s.Spelled document := fun hspelled => hspelled.given_ne_nil h
  rw [hstored]
  cases s with
  | sourceFiles => exact hspelled
  | compareEnabled => exact hspelled
  | _ =>
    -- a text that nobody set is empty
    exact not_not_intro rfl

/-- Where the names have no other spelling, a setting that is given is kept. -/
theorem kept_of_oneSpelling {value : Stored} (hgiven : s.given document ≠ [])
    (hvalue : value ≠ .text []) (h : s.OneSpelling document) : s.Kept document value := by
  cases value with
  | text v => exact fun hv => hvalue (congrArg Stored.text hv)
  | texts l => exact h.spelled hgiven
  | switch b => exact h.spelled hgiven

theorem stored_with_dir (m : Manifest) (dir : Bytes) (s : Setting) :
    stored { m with dir } s = m.stored s := by
  cases s <;> rfl

/-- The document sets each setting to one of the values that it gives for it in any spelling of its
names. A text is kept unless it is empty. A list or a switch is kept just if the document has its
exact names; else the default takes its place, whatever was given. So a setting that is not given
has its default, and in a document that spells the names in one way nothing is lost that was
given. -/
theorem load_keeps_spelled_settings (t : FileTree) (basis : Basis) (path data : Bytes)
    (document : Entries) (raw : Manifest) (hread : t.readFile path path = .ok data)
    (hdocument : document? data = some document)
    (hraw : ofDocument? basis.order document = some raw) :
    ∃ m, load t basis path = .ok m ∧ m.dir = t.absolute (Path.parent path) ∧ ∀ s : Setting,
      (s.given document = [] → raw.stored s = s.unset) ∧
      (s.given document ≠ [] → ∃ n ∈ s.given document, s.read n = some (raw.stored s)) ∧
      (s.Kept document (raw.stored s) → m.stored s = raw.stored s) ∧
      (¬ s.Kept document (raw.stored s) → m.stored s = s.default) ∧
      (s.given document = [] → ¬ s.Kept document (raw.stored s)) ∧
      (s.given document ≠ [] → raw.stored s ≠ .text [] → s.OneSpelling document →
        s.Kept document (raw.stored s)) := by
  let placed : Manifest := { raw with dir := t.absolute (Path.parent path) }
  refine ⟨placed.withDefaults document, ?_, rfl, fun s => ?_⟩
  · simp [load, hread, ofData?, hdocument, hraw, placed]
  · have hdefaults := stored_withDefaults (distinct_of_document? hdocument) placed s
    rw [stored_with_dir] at hdefaults
    obtain ⟨hunset, hgiven⟩ := (overwritten_ofDocument hraw s).after_cases
    exact ⟨hunset, hgiven, hdefaults.1, hdefaults.2, not_kept_of_given_eq_nil hraw,
      kept_of_oneSpelling⟩

/-- A list under its exact names in a dotted key, a text under other letters, and a switch in a
section under other letters. -/
theorem load_keeps_spelled_settings_mixed :
    let data := bytes
      "source.files = ['x.adb']\n[Output]\nHEADER = 'x.h'\n[Compare]\nenabled = false\n"
    let t : FileTree := { entries := [([fileName], .file data)] }
    let raw : Manifest :=
      { source := { files := [bytes "x.adb"] }, output := { header := bytes "x.h" }
        compare := { enabled := false } }
    (document? data).bind (ofDocument? .written) = some raw ∧
      ∃ m, load t {} (bytes "/ada2c.toml") = .ok m ∧ m.source.files = [bytes "x.adb"] ∧
        m.output.header = bytes "x.h" ∧ m.compare.enabled = true := by
  intro data t raw
  have hread : (document? data).bind (ofDocument? .written) = some raw := by decide +kernel
  obtain ⟨document, hdocument, hraw⟩ := Option.bind_eq_some_iff.mp hread
  have hdefines : ((document? data).map fun document =>
      (Entries.defines [bytes "source", bytes "files"] document,
        Entries.defines [bytes "compare", bytes "enabled"] document)) = some (true, false) := by
    decide +kernel
  rw [hdocument, Option.map_some, Option.some.injEq, Prod.mk.injEq] at hdefines
  have hdistinct := distinct_of_document? hdocument
  obtain ⟨m, hload, -, hsettings⟩ := load_keeps_spelled_settings t {} (bytes "/ada2c.toml") data
    document raw (by rfl) hdocument hraw
  have hfiles := (hsettings .sourceFiles).2.2.1 ((spelled_iff_defines hdistinct).mpr hdefines.1)
  have hheader := (hsettings .outputHeader).2.2.1 (List.cons_ne_nil _ _)
  have henabled := (hsettings .compareEnabled).2.2.2.1 fun hspelled =>
    Bool.false_ne_true (hdefines.2.symm.trans ((spelled_iff_defines hdistinct).mp hspelled))
  exact ⟨hread, m, hload, Stored.texts.inj hfiles, Stored.text.inj hheader,
    Stored.switch.inj henabled⟩

/-- A list of files under other letters is read and then lost. -/
theorem misspelled_files_take_default :
    let data := bytes "[source]\nFiles = ['x.adb']\n"
    let t : FileTree := { entries := [([fileName], .file data)] }
    ((document? data).bind (ofDocument? .written)).map (·.source.files) = some [bytes "x.adb"] ∧
      (load t {} (bytes "/ada2c.toml")).toOption.map (·.source.files) = some defaultFiles := by
  decide +kernel

end Manifest

end AdaToC
