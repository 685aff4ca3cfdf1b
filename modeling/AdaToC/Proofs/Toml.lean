import AdaToC.Manifest
import AdaToC.Proofs.Text.Validity

/-!
# The texts of a TOML document are well-formed

Every text that a TOML file gives is put together from characters, so it is well-formed whatever
the data were. The property is carried from literals to values, through each step by which a
document is put together, and into the manifest. What these steps can do is said once, by `Puts`:
they set entries.
-/

namespace AdaToC

namespace Toml

open Utf8

def Scalar.WellFormed : Scalar → Prop
  | .text s => IsText s
  | _ => True

/-- All texts in a value are well-formed. -/
inductive Value.WellFormed : Value → Prop where
  | scalar {s : Scalar} (h : s.WellFormed) : WellFormed (.scalar s)
  | array {items : List Value} (h : ∀ v ∈ items, WellFormed v) : WellFormed (.array items)
  | inlineTable {fields : List (Key × Value)} (h : ∀ f ∈ fields, WellFormed f.2) :
      WellFormed (.inlineTable fields)

/-- All texts in a part of a document are well-formed. -/
inductive Node.WellFormed : Node → Prop where
  | scalar {s : Scalar} (h : s.WellFormed) : WellFormed (.scalar s)
  | array {items : List Node} (h : ∀ n ∈ items, WellFormed n) : WellFormed (.array items)
  | table {entries : List (Bytes × Node)} (h : ∀ e ∈ entries, WellFormed e.2) :
      WellFormed (.table entries)
  | tables {elements : List (List (Bytes × Node))} (h : ∀ es ∈ elements, ∀ e ∈ es, WellFormed e.2) :
      WellFormed (.tables elements)

def Entries.WellFormed (es : Entries) : Prop :=
  ∀ e ∈ es, e.2.WellFormed

def Statement.WellFormed : Statement → Prop
  | .assign _ value => value.WellFormed
  | _ => True

/-! ## Literals -/

theorem wellFormed_of_withRest {value : Option Scalar} {s : Scalar} {rest behind : List Char}
    (hvalue : ∀ v, value = some v → v.WellFormed) (h : withRest value rest = some (s, behind)) :
    s.WellFormed := by
  obtain ⟨v, hv, heq⟩ := Option.map_eq_some_iff.mp h
  cases heq
  exact hvalue _ hv

theorem wellFormed_of_integer? {literal : List Char} {s : Scalar} (h : integer? literal = some s) :
    s.WellFormed := by
  unfold integer? at h
  split at h
  · obtain ⟨n, -, rfl⟩ := Option.map_eq_some_iff.mp h
    trivial
  · cases h

theorem wellFormed_of_float? {literal : List Char} {s : Scalar} (h : float? literal = some s) :
    s.WellFormed := by
  simp only [float?] at h
  split at h
  · cases h
    trivial
  · cases h

theorem wellFormed_of_moment? {literal : List Char} {s : Scalar} (h : moment? literal = some s) :
    s.WellFormed := by
  simp only [moment?] at h
  split at h
  · cases h
    trivial
  · cases h

variable {cs rest : List Char}

theorem wellFormed_of_decimalNumber? {s : Scalar} (h : decimalNumber? cs = some (s, rest)) :
    s.WellFormed := by
  simp only [decimalNumber?] at h
  split at h
  · split at h
    · exact wellFormed_of_withRest (fun v => wellFormed_of_float?) h
    · exact wellFormed_of_withRest (fun v => wellFormed_of_integer?) h
  · exact wellFormed_of_withRest (fun v => wellFormed_of_integer?) h

theorem wellFormed_of_basedNumber? {base : List Char} {isDigit : Char → Bool} {s : Scalar}
    (h : basedNumber? base isDigit cs = some (s, rest)) : s.WellFormed := by
  simp only [basedNumber?] at h
  split at h
  · split at h
    · exact wellFormed_of_withRest (fun v => wellFormed_of_integer?) h
    · cases h
  · cases h

theorem wellFormed_of_digitValue? {s : Scalar} (h : digitValue? cs = some (s, rest)) :
    s.WellFormed := by
  unfold digitValue? at h
  split at h
  · exact wellFormed_of_basedNumber? h
  · exact wellFormed_of_basedNumber? h
  · exact wellFormed_of_basedNumber? h
  · split at h
    · split at h
      · exact wellFormed_of_withRest (fun v => wellFormed_of_moment?) h
      · exact wellFormed_of_decimalNumber? h
    · exact wellFormed_of_decimalNumber? h

/-- A string is written out from its characters; no other literal is a text. -/
theorem wellFormed_of_scalar? {s : Scalar} (h : scalar? cs = some (s, rest)) : s.WellFormed := by
  unfold scalar? at h
  split at h
  · cases h; trivial
  · cases h; trivial
  · cases h; trivial
  · cases h; trivial
  · split at h
    · obtain ⟨⟨chars, behind⟩, -, heq⟩ := Option.map_eq_some_iff.mp h
      cases heq
      exact isText_encodeAll chars
    · split at h
      · exact wellFormed_of_digitValue? h
      · split at h
        · split at h
          · cases h; trivial
          · cases h; trivial
          · split at h
            · exact wellFormed_of_decimalNumber? h
            · cases h
          · cases h
        · cases h
  · cases h

/-! ## Values -/

/-- The readers of values call each other with a smaller bound, so one induction on the bound does
for all three. -/
theorem wellFormed_of_values (bound : Nat) :
    (∀ cs v rest, value? bound cs = some (v, rest) → v.WellFormed) ∧
    (∀ cs items rest, items? bound cs = some (items, rest) → ∀ v ∈ items, v.WellFormed) ∧
    (∀ cs fields rest, fields? bound cs = some (fields, rest) → ∀ f ∈ fields, f.2.WellFormed) := by
  induction bound with
  | zero => simp [value?, items?, fields?]
  | succ bound ih =>
    obtain ⟨ihValue, ihItems, ihFields⟩ := ih
    refine ⟨?_, ?_, ?_⟩
    · intro cs v rest h
      simp only [value?] at h
      split at h
      · obtain ⟨⟨items, behind⟩, hread, heq⟩ := Option.map_eq_some_iff.mp h
        cases heq
        exact .array (ihItems _ _ _ hread)
      · obtain ⟨⟨fields, behind⟩, hread, heq⟩ := Option.map_eq_some_iff.mp h
        cases heq
        exact .inlineTable (ihFields _ _ _ hread)
      · obtain ⟨⟨s, behind⟩, hread, heq⟩ := Option.map_eq_some_iff.mp h
        cases heq
        exact .scalar (wellFormed_of_scalar? hread)
    · intro cs items rest h
      simp only [items?] at h
      split at h
      · cases h
        simp
      · split at h
        · cases h
        next item behind hitem =>
          have hhead := ihValue _ _ _ hitem
          split at h
          · obtain ⟨⟨others, behind⟩, hread, heq⟩ := Option.map_eq_some_iff.mp h
            cases heq
            simpa [hhead] using ihItems _ _ _ hread
          · cases h
            simpa using hhead
          · cases h
    · intro cs fields rest h
      simp only [fields?] at h
      split at h
      · cases h
        simp
      · split at h
        · split at h
          · cases h
          next value behind hvalue =>
            have hhead := ihValue _ _ _ hvalue
            split at h
            · obtain ⟨⟨others, behind⟩, hread, heq⟩ := Option.map_eq_some_iff.mp h
              cases heq
              intro f hf
              rcases List.mem_cons.mp hf with rfl | hf
              · exact hhead
              · exact ihFields _ _ _ hread f hf
            · cases h
              simpa using hhead
            · cases h
        · cases h

theorem wellFormed_of_statement? {bound : Nat} {statement : Statement}
    (h : statement? bound cs = some (statement, rest)) : statement.WellFormed := by
  unfold statement? at h
  split at h
  · split at h
    · obtain ⟨behind, -, heq⟩ := Option.map_eq_some_iff.mp h
      cases heq
      trivial
    · cases h
  · split at h
    · obtain ⟨behind, -, heq⟩ := Option.map_eq_some_iff.mp h
      cases heq
      trivial
    · cases h
  · split at h
    · split at h
      next value behind hvalue =>
        obtain ⟨behind, -, heq⟩ := Option.map_eq_some_iff.mp h
        cases heq
        exact (wellFormed_of_values bound).1 _ _ _ hvalue
      · cases h
    · cases h

theorem wellFormed_of_statements? {depth bound : Nat} {statements : List Statement}
    (h : statements? depth bound cs = some statements) : ∀ s ∈ statements, s.WellFormed := by
  induction bound generalizing cs statements with
  | zero => simp [statements?] at h
  | succ bound ih =>
    simp only [statements?] at h
    split at h
    · cases h
      simp
    · split at h
      next statement rest hstatement =>
        obtain ⟨others, hread, rfl⟩ := Option.map_eq_some_iff.mp h
        intro s hs
        rcases List.mem_cons.mp hs with rfl | hs
        · exact wellFormed_of_statement? hstatement
        · exact ih hread s hs
      · cases h

theorem wellFormed_of_parse? {data : Bytes} {statements : List Statement}
    (h : parse? data = some statements) : ∀ s ∈ statements, s.WellFormed := by
  simp only [parse?] at h
  split at h
  · exact wellFormed_of_statements? h
  · cases h

/-! ## Entries -/

namespace Entries

variable {es : Entries} {k : Bytes} {n : Node}

theorem WellFormed.lookup (hes : es.WellFormed) (h : es.lookup k = some n) : n.WellFormed := by
  induction es with
  | nil => cases h
  | cons e rest ih =>
    obtain ⟨k', n'⟩ := e
    rw [List.lookup_cons] at h
    split at h
    · cases h
      exact hes _ List.mem_cons_self
    · exact ih (fun e he => hes e (List.mem_cons_of_mem _ he)) h

theorem WellFormed.set (hes : es.WellFormed) (k : Bytes) (hn : n.WellFormed) :
    (Entries.set k n es).WellFormed := by
  induction es with
  | nil => simpa [Entries.set, WellFormed] using hn
  | cons e rest ih =>
    obtain ⟨k', n'⟩ := e
    have hrest : WellFormed rest := fun e he => hes e (List.mem_cons_of_mem _ he)
    unfold Entries.set
    split
    · exact List.forall_mem_cons.mpr ⟨hn, hrest⟩
    · exact List.forall_mem_cons.mpr ⟨hes _ List.mem_cons_self, ih hrest⟩

theorem WellFormed.arrange (hes : es.WellFormed) (order : EntryOrder) (keys : List Bytes) :
    (order.arrange keys es).WellFormed :=
  fun e he => hes e ((order.perm keys es).mem_iff.mp he)

theorem WellFormed.at? {key : Key} {inner : Entries} (hes : es.WellFormed)
    (h : Entries.at? key es = some inner) : inner.WellFormed := by
  induction key generalizing es with
  | nil =>
    cases h
    exact hes
  | cons k key ih =>
    simp only [Entries.at?] at h
    split at h
    next table hlookup =>
      cases hes.lookup hlookup with
      | table htable => exact ih htable h
    next elements hlookup =>
      obtain ⟨last, hlast, hinner⟩ := Option.bind_eq_some_iff.mp h
      cases hes.lookup hlookup with
      | tables helements => exact ih (helements last (List.mem_of_getLast? hlast)) hinner
    · cases h

theorem WellFormed.modify {f : Entries → Entries} (hf : ∀ es, es.WellFormed → (f es).WellFormed)
    (key : Key) (hes : es.WellFormed) : (Entries.modify f key es).WellFormed := by
  induction key generalizing es with
  | nil => exact hf es hes
  | cons k key ih =>
    simp only [Entries.modify]
    split
    next table hlookup =>
      cases hes.lookup hlookup with
      | table htable => exact hes.set k (.table (ih htable))
    next elements hlookup =>
      cases hes.lookup hlookup with
      | tables helements =>
        split
        next last hlast =>
          refine hes.set k (.tables ?_)
          intro es' hes'
          rcases List.mem_append.mp hes' with hes' | hes'
          · exact helements es' ((List.dropLast_prefix elements).subset hes')
          · rw [List.mem_singleton.mp hes']
            exact ih (helements last (List.mem_of_getLast? hlast))
        · exact hes
    · exact hes

theorem WellFormed.put {key : Key} {es' : Entries} (hes : es.WellFormed) (hn : n.WellFormed)
    (h : Entries.put n key es = some es') : es'.WellFormed := by
  fun_induction Entries.put n key es generalizing es' with
  | case1 es => cases h; exact hes
  | case2 k es => cases h; exact hes.set k hn
  | case3 k key es hkey hlookup ih =>
    obtain ⟨inner, hinner, rfl⟩ := Option.map_eq_some_iff.mp h
    exact hes.set k (.table (ih (by simp [WellFormed]) hinner))
  | case4 k key es hkey inner hlookup ih =>
    obtain ⟨inner', hinner, rfl⟩ := Option.map_eq_some_iff.mp h
    cases hes.lookup hlookup with
    | table htable => exact hes.set k (.table (ih htable hinner))
  | case5 => cases h

end Entries

/-! ## Putting a document together -/

/-- The second document comes from the first by entries that are set in it one after the other, each
to something well-formed if the document is well-formed at that point. -/
inductive Puts (es : Entries) : Entries → Prop where
  | refl : Puts es es
  | put {es' : Entries} (h : Puts es es') (context : Key) (k : Bytes) {n : Node}
      (hn : es'.WellFormed → n.WellFormed) :
      Puts es (Entries.modify (Entries.set k n) context es')

theorem Puts.trans {es es' es'' : Entries} (h : Puts es es') (h' : Puts es' es'') :
    Puts es es'' := by
  induction h' with
  | refl => exact h
  | put _ context k hn ih => exact ih.put context k hn

theorem Puts.wellFormed {es es' : Entries} (h : Puts es es') (hes : es.WellFormed) :
    es'.WellFormed := by
  induction h with
  | refl => exact hes
  | put _ context k hn ih => exact ih.modify (fun _ hinner => hinner.set k (hn ih)) context

namespace Assembly

variable {a a' : Assembly} {context key : Key} {k : Bytes} {n : Node}

theorem root_noteKind (a : Assembly) (context : Key) (k : Bytes) (isArray : Bool) :
    (a.noteKind context k isArray).root = a.root := by
  unfold noteKind
  cases isArray <;> rfl

theorem puts_define (hn : n.WellFormed) (h : a.define context k n = some a') :
    Puts a.root a'.root := by
  simp only [Assembly.define] at h
  repeat' split at h
  all_goals cases h
  · exact Puts.refl.put context k fun _ => hn
  · exact Puts.refl.put context k fun _ => hn
  · exact .refl

theorem puts_enter (h : a.enter context key = some a') : Puts a.root a'.root := by
  induction key generalizing a context with
  | nil =>
    cases h
    exact .refl
  | cons k rest ih =>
    simp only [Assembly.enter] at h
    repeat' split at h
    · cases h
    · exact (Puts.refl.put context k fun _ => .table (by simp)).trans (ih h)
    · exact ih h
    · exact ih h
    · cases h

theorem puts_openTable (h : a.openTable key = some a') : Puts a.root a'.root := by
  simp only [Assembly.openTable, Option.bind_eq_bind, Option.bind_eq_some_iff] at h
  obtain ⟨b, henter, hdefine⟩ := h
  exact (puts_enter henter).trans (puts_define (.table (by simp)) hdefine)

theorem puts_openElement (h : a.openElement key = some a') : Puts a.root a'.root := by
  simp only [Assembly.openElement, Option.bind_eq_bind, Option.bind_eq_some_iff] at h
  obtain ⟨b, henter, es, hes, h⟩ := h
  split at h
  · cases h
    exact (puts_enter henter).put _ _ fun _ => .tables (by simp)
  next elements hlookup =>
    cases h
    -- the tables that are there already are those of the document
    refine (puts_enter henter).put _ _ fun hb => ?_
    cases (Entries.WellFormed.at? hb hes).lookup hlookup with
    | tables helements =>
      refine .tables ?_
      simpa [or_imp, forall_and] using helements
  · cases h

theorem puts_openDotted {inner : Key} (h : a.openDotted context key = some (a', inner)) :
    Puts a.root a'.root := by
  induction key generalizing a context with
  | nil =>
    cases h
    exact .refl
  | cons k rest ih =>
    simp only [Assembly.openDotted, Option.bind_eq_bind, Option.bind_eq_some_iff] at h
    obtain ⟨b, hopen, h⟩ := h
    exact (puts_openTable hopen).trans (ih h)

/-- Building a value sets entries of the document and gives a well-formed part of it. -/
def Builds (v : Value) : Prop :=
  ∀ {a a' : Assembly} {context : Key} {k : Bytes} {inArray : Bool} {n : Node},
    a.build context k inArray v = some (a', n) → Puts a.root a'.root ∧ n.WellFormed

theorem puts_buildItems {items : List Value} (hitems : ∀ v ∈ items, Builds v)
    {nodes : List Node} (h : a.buildItems context k items = some (a', nodes)) :
    Puts a.root a'.root ∧ ∀ n ∈ nodes, n.WellFormed := by
  induction items generalizing a nodes with
  | nil =>
    cases h
    exact ⟨.refl, by simp⟩
  | cons item rest ih =>
    simp only [buildItems] at h
    split at h
    · cases h
    next b node hbuild =>
      obtain ⟨hb, hnode⟩ := hitems item List.mem_cons_self hbuild
      split at h
      next c nodes hrest =>
        cases h
        obtain ⟨hc, hnodes⟩ := ih (fun v hv => hitems v (List.mem_cons_of_mem _ hv)) hrest
        exact ⟨hb.trans hc, List.forall_mem_cons.mpr ⟨hnode, hnodes⟩⟩
      · cases h

theorem puts_buildFields {fields : List (Key × Value)} (hfields : ∀ f ∈ fields, Builds f.2)
    {built entries : Entries} (hbuilt : built.WellFormed)
    (h : a.buildFields context built fields = some (a', entries)) :
    Puts a.root a'.root ∧ entries.WellFormed := by
  induction fields generalizing a built with
  | nil =>
    cases h
    exact ⟨.refl, hbuilt⟩
  | cons field rest ih =>
    obtain ⟨key, value⟩ := field
    simp only [buildFields] at h
    split at h
    · cases h
    next b inner hopen =>
      split at h
      · cases h
      next c node hbuild =>
        obtain ⟨hc, hnode⟩ := hfields _ List.mem_cons_self hbuild
        split at h
        next d built' hdefine hput =>
          obtain ⟨hrest, hentries⟩ := ih (fun f hf => hfields f (List.mem_cons_of_mem _ hf))
            (hbuilt.put hnode hput) h
          rw [root_noteKind] at hrest
          have hd := ((puts_openDotted hopen).trans hc).trans (puts_define hnode hdefine)
          exact ⟨hd.trans hrest, hentries⟩
        · cases h

/-- Induction on the value, along the proof that its texts are well-formed. -/
theorem builds {v : Value} (hv : v.WellFormed) : Builds v := by
  intro a a' context k inArray n h
  induction hv generalizing a a' context k inArray n with
  | scalar hs =>
    cases h
    exact ⟨.refl, .scalar hs⟩
  | array _ ih =>
    simp only [build] at h
    split at h
    next b nodes hitems =>
      cases h
      obtain ⟨hb, hnodes⟩ := puts_buildItems (fun v hv => ih v hv) hitems
      rw [root_noteKind] at hb
      exact ⟨hb, .array hnodes⟩
    · cases h
  | inlineTable _ ih =>
    simp only [build] at h
    split at h
    · cases h
    next b hopen =>
      have hb : Puts a.root b.root := by
        show Puts (a.addProvisional (context ++ [k])).root b.root
        split at hopen
        · exact puts_openElement hopen
        · exact puts_openTable hopen
      split at h
      next c entries hfields =>
        cases h
        obtain ⟨hc, hentries⟩ := puts_buildFields (fun f hf => ih f hf)
          (by simp [Entries.WellFormed]) hfields
        exact ⟨hb.trans hc, .table hentries⟩
      · cases h

theorem puts_step {statement : Statement} {next : Key} (hstatement : statement.WellFormed)
    (h : a.step context statement = some (a', next)) : Puts a.root a'.root := by
  cases statement with
  | table key =>
    obtain ⟨b, hopen, heq⟩ := Option.map_eq_some_iff.mp h
    cases heq
    show Puts a.root b.root
    exact puts_openTable hopen
  | element key =>
    obtain ⟨b, hopen, heq⟩ := Option.map_eq_some_iff.mp h
    cases heq
    show Puts a.root b.root
    exact puts_openElement hopen
  | assign key value =>
    simp only [Assembly.step, Option.bind_eq_bind, Option.bind_eq_some_iff] at h
    obtain ⟨⟨b, inner⟩, hopen, ⟨c, node⟩, hbuild, d, hdefine, heq⟩ := h
    cases heq
    obtain ⟨hc, hnode⟩ := builds hstatement hbuild
    rw [root_noteKind]
    exact ((puts_openDotted hopen).trans hc).trans (puts_define hnode hdefine)

theorem puts_run {statements : List Statement} (hstatements : ∀ s ∈ statements, s.WellFormed)
    (h : a.run context statements = some a') : Puts a.root a'.root := by
  induction statements generalizing a context with
  | nil =>
    cases h
    exact .refl
  | cons s rest ih =>
    simp only [Assembly.run] at h
    split at h
    next b next hstep =>
      have hb := puts_step (hstatements s List.mem_cons_self) hstep
      exact hb.trans (ih (fun s hs => hstatements s (List.mem_cons_of_mem _ hs)) h)
    · cases h

end Assembly

theorem puts_of_document? {data : Bytes} {document : Entries}
    (h : document? data = some document) : Puts [] document := by
  simp only [document?, Option.bind_eq_bind, Option.bind_eq_some_iff] at h
  obtain ⟨statements, hparse, a, hrun, heq⟩ := h
  cases heq
  exact Assembly.puts_run (wellFormed_of_parse? hparse) hrun

theorem wellFormed_of_document? {data : Bytes} {document : Entries}
    (h : document? data = some document) : document.WellFormed :=
  (puts_of_document? h).wellFormed (by simp [Entries.WellFormed])

end Toml

/-! ## The manifest -/

namespace Manifest

open Toml Utf8

theorem isText_of_text? {n : Node} {s : Bytes} (hn : n.WellFormed) (h : text? n = some s) :
    IsText s := by
  unfold text? at h
  split at h
  · cases h
    cases hn with
    | scalar hs => exact hs
  · cases h

/-- What every key of a table keeps, setting them all keeps. -/
theorem foldlM_keeps {α : Type} {f : α → Bytes → Node → Option α} {P : α → Prop}
    (hset : ∀ {s s' : α} {key : Bytes} {n : Node}, n.WellFormed → P s → f s key n = some s' → P s')
    {entries : Entries} (hentries : entries.WellFormed) {start s : α} (hstart : P start)
    (h : entries.foldlM (fun s (key, n) => f s key n) start = some s) : P s := by
  induction entries generalizing start with
  | nil => cases h; exact hstart
  | cons e rest ih =>
    rw [List.foldlM_cons, Option.bind_eq_bind, Option.bind_eq_some_iff] at h
    obtain ⟨next, hnext, h⟩ := h
    exact ih (fun e he => hentries e (List.mem_cons_of_mem _ he))
      (hset (hentries e List.mem_cons_self) hstart hnext) h

theorem isText_header_of_set {o o' : OutputSection} {key : Bytes} {n : Node} (hn : n.WellFormed)
    (ho : IsText o.header) (h : OutputSection.set o key n = some o') : IsText o'.header := by
  unfold OutputSection.set at h
  split at h
  · obtain ⟨v, -, rfl⟩ := Option.map_eq_some_iff.mp h
    exact ho
  split at h
  · obtain ⟨v, hv, rfl⟩ := Option.map_eq_some_iff.mp h
    exact isText_of_text? hn hv
  split at h
  · obtain ⟨v, -, rfl⟩ := Option.map_eq_some_iff.mp h
    exact ho
  split at h
  · obtain ⟨v, -, rfl⟩ := Option.map_eq_some_iff.mp h
    exact ho
  · cases h
    exact ho

theorem isText_header_of_setSection {order : EntryOrder} {m m' : Manifest} {key : Bytes} {n : Node}
    (hn : n.WellFormed) (hm : IsText m.output.header) (h : setSection order m key n = some m') :
    IsText m'.output.header := by
  unfold setSection at h
  split at h
  · obtain ⟨v, -, rfl⟩ := Option.map_eq_some_iff.mp h
    exact hm
  split at h
  · obtain ⟨o, ho, rfl⟩ := Option.map_eq_some_iff.mp h
    cases hn with
    | table hentries =>
      exact foldlM_keeps (P := fun o => IsText o.header) isText_header_of_set
        (Entries.WellFormed.arrange hentries order [key]) hm ho
    | _ => cases ho
  split at h
  · obtain ⟨v, -, rfl⟩ := Option.map_eq_some_iff.mp h
    exact hm
  · cases h
    exact hm

theorem isText_header_withDefaults {m : Manifest} (h : IsText m.output.header)
    (document : Entries) : IsText (m.withDefaults document).output.header :=
  h.orElse (isText_bytes _)

theorem isText_header_default (dir : Bytes) : IsText (default dir).output.header :=
  isText_header_withDefaults isText_nil []

theorem isText_header_of_load {t : FileTree} {basis : Basis} {path : Bytes} {m : Manifest}
    (h : load t basis path = .ok m) : IsText m.output.header := by
  unfold load at h
  split at h
  · cases h
  split at h
  next hdata =>
    cases h
    simp only [ofData?, Option.bind_eq_bind, Option.bind_eq_some_iff, Option.some.injEq] at hdata
    obtain ⟨document, hdocument, raw, hraw, rfl⟩ := hdata
    have hheader : IsText raw.output.header :=
      foldlM_keeps (f := setSection basis.order) (P := fun m => IsText m.output.header)
        isText_header_of_setSection ((wellFormed_of_document? hdocument).arrange basis.order [])
        isText_nil hraw
    exact isText_header_withDefaults (m := { raw with dir := _ }) hheader document
  · cases h

end Manifest

end AdaToC
