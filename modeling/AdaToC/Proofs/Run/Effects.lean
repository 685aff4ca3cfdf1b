import AdaToC.Proofs.FileTree
import AdaToC.Proofs.Run.Stages

/-!
# What a run leaves on disk

A run writes two files at most, the header and then the implementation, each with the directories
that lead to it. Writing one file can end in three ways, which `Run.Ended` tells apart: the file is
there as a whole, it could not be opened, or it lost its end. `Run.Wrote` follows the writes one by
one. From it come the frame of a run, which says what it may touch, and the contents of the files
after a run that failed.
-/

namespace AdaToC

namespace FileTree

variable {t t' : FileTree}

/-- The content of the file at a location. -/
def contents (t : FileTree) (l : Location) : Option Bytes :=
  match t.lookup l with
  | some (.file data) => some data
  | _ => none

theorem MakesWay.contents_eq {target : Location} (h : MakesWay target t t') :
    t'.contents = t.contents := by
  funext l
  unfold contents
  rcases h.lookup l with hkept | ⟨hnone, hmade, -⟩
  · rw [hkept]
  · rw [hnone, hmade]

/-- What may become of a place when files are to be written of which some are: nothing, one of the
files written, or a directory that was missing on the way to one of the files. -/
inductive Touched (place : Bytes → Location) (outputs written : List (Bytes × Bytes))
    (l : Location) : Option Entry → Option Entry → Prop where
  | kept (e : Option Entry) : Touched place outputs written l e e
  | written {path text : Bytes} {before : Option Entry} (hmem : (path, text) ∈ written)
      (hl : l = place path) (hbefore : before ≠ some .directory) :
      Touched place outputs written l before (some (.file text))
  | made {path text : Bytes} (hmem : (path, text) ∈ outputs)
      (hl : l <+: place (Path.parent path)) :
      Touched place outputs written l none (some .directory)

variable {place : Bytes → Location} {outputs written : List (Bytes × Bytes)} {l : Location}

theorem Touched.mono {more all : List (Bytes × Bytes)} (hsub : written ⊆ more)
    (houtputs : outputs ⊆ all) {before after : Option Entry}
    (h : Touched place outputs written l before after) : Touched place all more l before after := by
  cases h with
  | kept => exact .kept _
  | written hmem hl hbefore => exact .written (hsub hmem) hl hbefore
  | made hmem hl => exact .made (houtputs hmem) hl

/-- What was made or written before stays a directory or a file. -/
theorem Touched.trans {e e' e'' : Option Entry} (h : Touched place outputs written l e e')
    (h' : Touched place outputs written l e' e'') : Touched place outputs written l e e'' := by
  cases h' with
  | kept => exact h
  | written hmem hl hbefore =>
    refine .written hmem hl ?_
    -- a directory that was made is not written over
    cases h with
    | kept => exact hbefore
    | written _ _ hfirst => exact hfirst
    | made _ _ => exact absurd rfl hbefore
  | made hmem hl =>
    cases h
    exact .made hmem hl

theorem MakesWay.touched {path text : Bytes}
    (h : MakesWay (t.locationOf (Path.parent path)) t t') (hmem : (path, text) ∈ outputs)
    (l : Location) : Touched t.locationOf outputs written l (t.lookup l) (t'.lookup l) := by
  rcases h.lookup l with hkept | ⟨hnone, hmade, habove⟩
  · rw [hkept]
    exact .kept _
  · rw [hnone, hmade]
    exact .made hmem habove

end FileTree

namespace Run

open FileTree

variable {t t' made : FileTree} {outputs written : List (Bytes × Bytes)} {path text : Bytes}

/-! ## Writing one file -/

/-- A file holds a text now and can be found at its path. Else only directories on the way to it are
new. -/
structure WroteOne (t : FileTree) (path text : Bytes) (t' : FileTree) : Prop where
  grows : Grows t t'
  found : t'.find path = .ok (t.locationOf path, .file text)
  place : t.lookup (t.locationOf path) ≠ some .directory
  frame : ∀ l, l ≠ t.locationOf path → t'.lookup l = t.lookup l ∨
    t.lookup l = none ∧ t'.lookup l = some .directory ∧ l <+: t.locationOf (Path.parent path)

theorem wroteOne_insert (hway : MakesWay (t.locationOf (Path.parent path)) t made)
    (h : made.Writable path) (text : Bytes) :
    WroteOne t path text (made.insert (made.locationOf path) (.file text)) := by
  have hsame : made.locationOf = t.locationOf := hway.grows.locationOf_eq
  have hadmits := h.admits text
  have hfound := h.found text
  rw [hsame] at hadmits hfound ⊢
  refine ⟨hway.grows.trans (grows_insert hadmits), hfound, fun hdirectory => ?_, fun l hl => ?_⟩
  · cases hadmits.directory (hway.grows.directory _ hdirectory)
  · rw [lookup_insert hadmits, if_neg hl]
    exact hway.lookup l

/-- The failure came before anything of the file was written. -/
def Unopened (path : Bytes) (e : PathError) : Prop :=
  e.operation = .makeDirectory ∨ e.operation = .openFile ∧ e.path = path

/-- The failure came when the file was open, and with it the old content was gone. -/
def CutShort (path : Bytes) (e : PathError) : Prop :=
  (e.operation = .write ∨ e.operation = .close) ∧ e.path = path

/-- How the writing of one file can end. In a tree without faults a file that cannot be written
cannot be read either. -/
inductive Ended (t : FileTree) (path text : Bytes) : FileTree → Option PathError → Prop where
  | written {t' : FileTree} (hone : WroteOne t path text t') : Ended t path text t' none
  | cut {t' : FileTree} {e : PathError} {part : Bytes} (hpart : part <+: text)
      (hone : WroteOne t path part t') (he : CutShort path e) (hfaults : t.faults ≠ []) :
      Ended t path text t' (some e)
  | unopened {t' : FileTree} {e : PathError}
      (hway : MakesWay (t.locationOf (Path.parent path)) t t') (he : Unopened path e)
      (hunread : t.faults = [] → ∀ shown data, t'.readFile shown path ≠ .ok data) :
      Ended t path text t' (some e)

theorem faults_ne_nil_of_lookup {l : Location} {fault : Fault}
    (hway : MakesWay (t.locationOf (Path.parent path)) t made)
    (h : made.faults.lookup l = some fault) : t.faults ≠ [] := by
  intro hnone
  rw [hway.faults, hnone] at h
  cases h

theorem ended_writeOne (t : FileTree) (path text : Bytes) :
    Ended t path text (writeOne t path text).1 (writeOne t path text).2 := by
  obtain ⟨hway, hblocked⟩ := makeDirectories_spec t (Path.parent path)
  unfold writeOne
  split
  · next made e hmake =>
    rw [hmake] at hway hblocked
    obtain ⟨hoperation, blocked, habove, hne⟩ := hblocked e rfl
    refine .unopened hway (Or.inl hoperation) fun _ shown data hread => ?_
    obtain ⟨l, hfound⟩ := (readFile_eq_ok_iff shown).mp hread
    -- a directory on the way could not be made, so the path does not get through
    refine hne (lookup_of_prefix_parent (find_eq_ok_iff.mp hfound).1 ?_)
    rwa [hway.grows.locationOf_eq]
  · next made hmake =>
    rw [hmake] at hway
    rcases writeFile_cases made path text with ⟨hplace, hstore⟩ | ⟨⟨reason, hfail⟩, hunread⟩
    · rw [hstore]
      unfold store
      split
      · exact .written (wroteOne_insert hway hplace text)
      · next reason hfault =>
        refine .unopened hway (Or.inr ⟨rfl, rfl⟩) fun hnone => ?_
        exact absurd hnone (faults_ne_nil_of_lookup hway hfault)
      · next kept closing reason hfault =>
        refine .cut (List.take_prefix kept text) (wroteOne_insert hway hplace _) ⟨?_, rfl⟩
          (faults_ne_nil_of_lookup hway hfault)
        cases closing
        · exact Or.inl rfl
        · exact Or.inr rfl
    · rw [hfail]
      refine .unopened hway (Or.inr ⟨rfl, rfl⟩) fun _ shown data hread => ?_
      obtain ⟨l, hfound⟩ := (readFile_eq_ok_iff shown).mp hread
      exact hunread l data hfound

/-! ## Writing file after file -/

/-- Files are written one after the other. -/
inductive Wrote : FileTree → List (Bytes × Bytes) → FileTree → Prop where
  | nil (t : FileTree) : Wrote t [] t
  | cons {t middle t' : FileTree} {path text : Bytes} {rest : List (Bytes × Bytes)}
      (hone : WroteOne t path text middle) (hrest : Wrote middle rest t') :
      Wrote t ((path, text) :: rest) t'

/-- What was written of the outputs when one of them failed: all before it, and of that one the
first bytes if it had been opened. -/
inductive Interrupted (outputs : List (Bytes × Bytes)) (e : PathError) :
    List (Bytes × Bytes) → Prop where
  | unopened {before behind : List (Bytes × Bytes)} {path text : Bytes}
      (houtputs : outputs = before ++ (path, text) :: behind) (he : Unopened path e) :
      Interrupted outputs e before
  | cut {before behind : List (Bytes × Bytes)} {path text part : Bytes}
      (houtputs : outputs = before ++ (path, text) :: behind) (hpart : part <+: text)
      (he : CutShort path e) : Interrupted outputs e (before ++ [(path, part)])

theorem Interrupted.cons {e : PathError} (o : Bytes × Bytes) (h : Interrupted outputs e written) :
    Interrupted (o :: outputs) e (o :: written) := by
  cases h with
  | unopened houtputs he => exact .unopened (congrArg (o :: ·) houtputs) he
  | @cut before behind path text part houtputs hpart he =>
    have hcons : o :: outputs = (o :: before) ++ (path, text) :: behind :=
      congrArg (o :: ·) houtputs
    exact .cut hcons hpart he

theorem wrote_of_writeAll {records : List Log.Record}
    (h : writeAll t outputs = (t', records, none)) : Wrote t outputs t' := by
  induction outputs generalizing t records with
  | nil =>
    cases h
    exact .nil t'
  | cons output rest ih =>
    obtain ⟨path, text⟩ := output
    have hended := ended_writeOne t path text
    rw [writeAll] at h
    split at h
    · cases h
    · next middle hwrite =>
      rw [hwrite] at hended
      cases hended with
      | written hone =>
        rcases hrest : writeAll middle rest with ⟨last, more, failure⟩
        rw [hrest] at h
        cases h
        exact .cons hone (ih hrest)

/-- Where writing stopped: `written` was written, which gave the tree `middle`, and then the way to
the output `o` was made as far as possible. -/
structure Stopped (t : FileTree) (outputs : List (Bytes × Bytes)) (e : PathError) (t' : FileTree)
    (written : List (Bytes × Bytes)) (middle : FileTree) (o : Bytes × Bytes) : Prop where
  interrupted : Interrupted outputs e written
  wrote : Wrote t written middle
  mem : o ∈ outputs
  way : MakesWay (middle.locationOf (Path.parent o.1)) middle t'
  unread : t.faults = [] → (∃ behind, outputs = written ++ o :: behind) ∧
    ∀ shown data, t'.readFile shown o.1 ≠ .ok data

theorem Stopped.cons {middle last : FileTree} {rest : List (Bytes × Bytes)} {e : PathError}
    {o : Bytes × Bytes} (hone : WroteOne t path text middle)
    (h : Stopped middle rest e t' written last o) :
    Stopped t ((path, text) :: rest) e t' ((path, text) :: written) last o := by
  refine ⟨h.interrupted.cons _, .cons hone h.wrote, List.mem_cons_of_mem _ h.mem, h.way,
    fun hfaults => ?_⟩
  obtain ⟨⟨behind, rfl⟩, hunread⟩ := h.unread (hone.grows.faults.trans hfaults)
  exact ⟨⟨behind, rfl⟩, hunread⟩

/-- The writes up to the one that failed stand. -/
theorem exists_stopped_of_writeAll {records : List Log.Record} {e : PathError}
    (h : writeAll t outputs = (t', records, some e)) :
    ∃ written middle o, Stopped t outputs e t' written middle o := by
  induction outputs generalizing t records with
  | nil => cases h
  | cons output rest ih =>
    obtain ⟨path, text⟩ := output
    have hended := ended_writeOne t path text
    rw [writeAll] at h
    split at h
    · next last failure hwrite =>
      -- the first file is the one that failed
      cases h
      rw [hwrite] at hended
      cases hended with
      | @cut _ part hpart hone he hfaults =>
        exact ⟨[] ++ [(path, part)], t', (path, text), .cut rfl hpart he, .cons hone (.nil _),
          List.mem_cons_self, MakesWay.refl _ _, fun hnone => absurd hnone hfaults⟩
      | unopened hway he hunread =>
        exact ⟨[], t, (path, text), .unopened rfl he, .nil t, List.mem_cons_self, hway,
          fun hfaults => ⟨⟨rest, rfl⟩, hunread hfaults⟩⟩
    · next middle hwrite =>
      rw [hwrite] at hended
      cases hended with
      | written hone =>
        rcases hrest : writeAll middle rest with ⟨last, more, failure⟩
        rw [hrest] at h
        cases h
        obtain ⟨written, last, o, hstopped⟩ := ih hrest
        exact ⟨_, last, o, hstopped.cons hone⟩

theorem WroteOne.lookup_eq (h : WroteOne t path text t') :
    t'.lookup (t.locationOf path) = some (.file text) :=
  (find_eq_ok_iff.mp h.found).2

theorem WroteOne.touched {whole : Bytes} (h : WroteOne t path text t')
    (houtput : (path, whole) ∈ outputs) (hwritten : (path, text) ∈ written) (l : Location) :
    Touched t.locationOf outputs written l (t.lookup l) (t'.lookup l) := by
  by_cases hl : l = t.locationOf path
  · rw [hl, h.lookup_eq]
    exact .written hwritten rfl h.place
  · rcases h.frame l hl with hkept | ⟨hnone, hmade, habove⟩
    · rw [hkept]
      exact .kept _
    · rw [hnone, hmade]
      exact .made houtput habove

theorem Wrote.grows (h : Wrote t written t') : Grows t t' := by
  induction h with
  | nil t => exact (MakesWay.refl [] t).grows
  | cons hone hrest ih => exact hone.grows.trans ih

/-- Writing touches the places of the files and the way to them. -/
theorem Wrote.touched (h : Wrote t written t')
    (houtputs : ∀ o ∈ written, ∃ whole, (o.1, whole) ∈ outputs) (l : Location) :
    Touched t.locationOf outputs written l (t.lookup l) (t'.lookup l) := by
  induction h with
  | nil t => exact .kept _
  | cons hone hrest ih =>
    obtain ⟨whole, hwhole⟩ := houtputs _ List.mem_cons_self
    have hlater := ih fun o ho => houtputs o (List.mem_cons_of_mem _ ho)
    rw [hone.grows.locationOf_eq] at hlater
    exact (hone.touched hwhole List.mem_cons_self l).trans
      (hlater.mono (List.subset_cons_self _ _) (List.Subset.refl _))

/-- A file stays readable when other files are written. -/
theorem Wrote.find_of_ne (h : Wrote t written t') {p data : Bytes} {l : Location}
    (hfound : t.find p = .ok (l, .file data))
    (hne : ∀ o ∈ written, l ≠ t.locationOf o.1) : t'.find p = .ok (l, .file data) := by
  induction h with
  | nil t => exact hfound
  | cons hone hrest ih =>
    have hlookup := (find_eq_ok_iff.mp hfound).2
    refine ih (hone.grows.find hfound ?_) fun o ho => ?_
    · rcases hone.frame l (hne _ List.mem_cons_self) with hkept | ⟨hnone, -, -⟩
      · rw [hkept, hlookup]
      · rw [hnone] at hlookup
        cases hlookup
    · rw [hone.grows.locationOf_eq]
      exact hne o (List.mem_cons_of_mem _ ho)

/-- Files written to different places are there afterwards. -/
theorem Wrote.readFile_eq (h : Wrote t written t')
    (hdifferent : written.Pairwise fun a b => t.locationOf a.1 ≠ t.locationOf b.1)
    {o : Bytes × Bytes} (ho : o ∈ written) (shown : Bytes) :
    t'.readFile shown o.1 = .ok o.2 := by
  induction h with
  | nil t => cases ho
  | cons hone hrest ih =>
    have hsame := hone.grows.locationOf_eq
    obtain ⟨hfirst, hdifferent⟩ := List.pairwise_cons.mp hdifferent
    rcases List.mem_cons.mp ho with rfl | ho
    · exact (readFile_eq_ok_iff shown).mpr ⟨_, hrest.find_of_ne hone.found (hsame ▸ hfirst)⟩
    · exact ih (hsame ▸ hdifferent) ho

/-- The contents of files once some have been overwritten in order. -/
def overwritten (place : Bytes → Location) (written : List (Bytes × Bytes))
    (contents : Location → Option Bytes) : Location → Option Bytes :=
  written.foldl (fun c o l => if l = place o.1 then some o.2 else c l) contents

theorem WroteOne.contents_eq (h : WroteOne t path text t') :
    t'.contents = fun l => if l = t.locationOf path then some text else t.contents l := by
  funext l
  unfold contents
  by_cases hl : l = t.locationOf path
  · rw [if_pos hl, hl, h.lookup_eq]
  · rw [if_neg hl]
    rcases h.frame l hl with hkept | ⟨hnone, hmade, -⟩
    · rw [hkept]
    · rw [hnone, hmade]

theorem Wrote.contents_eq (h : Wrote t written t') :
    t'.contents = overwritten t.locationOf written t.contents := by
  induction h with
  | nil t => rfl
  | cons hone hrest ih =>
    rw [ih, hone.contents_eq, hone.grows.locationOf_eq]
    rfl

/-! ## What a run touches -/

variable {inv : Invocation} {stdout : Bytes} {failure : Option Failure}

/-- What was written when one of the outputs failed is one of them or the first bytes of one. -/
theorem Interrupted.exists_mem {e : PathError} (h : Interrupted outputs e written)
    {o : Bytes × Bytes} (ho : o ∈ written) : ∃ whole, (o.1, whole) ∈ outputs ∧ o.2 <+: whole := by
  cases h with
  | unopened houtputs he => exact ⟨o.2, houtputs ▸ List.mem_append_left _ ho, List.prefix_rfl⟩
  | @cut before behind path text part houtputs hpart he =>
    rw [houtputs]
    rcases List.mem_append.mp ho with ho | ho
    · exact ⟨o.2, List.mem_append_left _ ho, List.prefix_rfl⟩
    · rw [List.mem_singleton.mp ho]
      exact ⟨text, by simp, hpart⟩

theorem Stopped.touched {e : PathError} {middle : FileTree} {o : Bytes × Bytes}
    (h : Stopped t outputs e t' written middle o) (l : Location) :
    Touched t.locationOf outputs written l (t.lookup l) (t'.lookup l) := by
  have hbefore := h.wrote.touched
    (fun o ho => (h.interrupted.exists_mem ho).imp fun _ => And.left) l
  -- the files before the one that failed, then the directories of that one
  have hway : Touched middle.locationOf outputs written l (middle.lookup l) (t'.lookup l) :=
    h.way.touched h.mem l
  rw [h.wrote.grows.locationOf_eq] at hway
  exact hbefore.trans hway

theorem Effect.touched (h : Effect t inv t' stdout failure) :
    t' = t ∨ ∃ x written, Loads t inv x ∧
      (written = x.outputs inv.workDir ∨
        ∃ e, failure = some (.output e) ∧ Interrupted (x.outputs inv.workDir) e written) ∧
      (t.faults = [] → written <+: x.outputs inv.workDir) ∧
      ∀ l, Touched t.locationOf (x.outputs inv.workDir) written l (t.lookup l) (t'.lookup l) := by
  cases h with
  | @unwritten x t' records e hloads hgo hsome hstdout hwrite =>
    obtain ⟨written, middle, o, hstopped⟩ := exists_stopped_of_writeAll hwrite
    refine Or.inr ⟨x, written, hloads, Or.inr ⟨e, rfl, hstopped.interrupted⟩, fun hfaults => ?_,
      hstopped.touched⟩
    obtain ⟨⟨behind, houtputs⟩, -⟩ := hstopped.unread hfaults
    rw [houtputs]
    exact List.prefix_append _ _
  | @written x t' records failure hloads hgo hsome hstdout hwrite hcompared =>
    exact Or.inr ⟨x, _, hloads, Or.inl rfl, fun _ => List.prefix_rfl,
      (wrote_of_writeAll hwrite).touched fun o ho => ⟨o.2, ho⟩⟩
  | _ => exact Or.inl rfl

/-- The run has nothing to write. -/
inductive Idle (t : FileTree) (inv : Invocation) : Prop where
  | refused (e : ArgumentError) (hread : Settings.read inv.args inv.env = .error e)
  | helping (s : Settings) (hread : Settings.read inv.args inv.env = .ok s) (hhelp : s.help = true)
  | printing (s : Settings) (hread : Settings.read inv.args inv.env = .ok s)
      (hstdout : s.stdout = true)
  | cancelled (hcancelled : inv.cancelled = true)
  | unmanaged (s : Settings) (e : ManifestError) (hread : Settings.read inv.args inv.env = .ok s)
      (hmanifest : chooseManifest t inv.basis inv.workDir s = .error e)
  | unsourced (s : Settings) (m : Manifest) (found : Log.Record) (e : SourceError)
      (hread : Settings.read inv.args inv.env = .ok s)
      (hmanifest : chooseManifest t inv.basis inv.workDir s = .ok (m, found))
      (hsources : loadSources t inv.basis.tables inv.workDir s m = .error e)
  | empty (x : Load) (hloads : Loads t inv x) (hnone : x.functions = [])

/-- A run that comes to write has something to write. -/
theorem Loads.not_idle {x : Load} (h : Loads t inv x) (hgo : inv.cancelled = false)
    (hsome : x.functions ≠ []) (hstdout : x.settings.stdout = false) : ¬ Idle t inv := by
  have hsettings : ∀ {s}, Settings.read inv.args inv.env = .ok s → s = x.settings := by
    intro s hread
    rw [h.settings] at hread
    exact (Except.ok.inj hread).symm
  intro hidle
  cases hidle with
  | refused e hread =>
    rw [h.settings] at hread
    cases hread
  | helping s hread hhelp =>
    rw [hsettings hread, h.help] at hhelp
    cases hhelp
  | printing s hread hprint =>
    rw [hsettings hread, hstdout] at hprint
    cases hprint
  | cancelled hcancelled =>
    rw [hgo] at hcancelled
    cases hcancelled
  | unmanaged s e hread hmanifest =>
    rw [hsettings hread, h.manifest] at hmanifest
    cases hmanifest
  | unsourced s m found e hread hmanifest hsources =>
    obtain rfl := hsettings hread
    rw [h.manifest] at hmanifest
    cases hmanifest
    rw [h.sources] at hsources
    cases hsources
  | empty y hloads hnone =>
    obtain rfl := h.unique hloads
    exact hsome hnone

theorem Effect.tree_eq_of_idle (h : Effect t inv t' stdout failure) (hidle : Idle t inv) :
    t' = t := by
  cases h with
  | unwritten hloads hgo hsome hstdout hwrite =>
    exact absurd hidle (hloads.not_idle hgo hsome hstdout)
  | written hloads hgo hsome hstdout hwrite hcompared =>
    exact absurd hidle (hloads.not_idle hgo hsome hstdout)
  | _ => rfl

/-- The two generated files can be read at their paths, if these name different places. -/
theorem Effect.readFile_eq (h : Effect t inv t' stdout none) {s : Settings}
    (hread : Settings.read inv.args inv.env = .ok s) (hhelp : s.help = false)
    (hstdout : s.stdout = false) :
    ∃ x, Loads t inv x ∧ (x.functions ≠ [] →
      t.locationOf (x.headerPath inv.workDir) ≠ t.locationOf (x.implementationPath inv.workDir) →
      ∀ o ∈ x.outputs inv.workDir, ∀ shown, t'.readFile shown o.1 = .ok o.2) := by
  cases h with
  | @helped s' hread' hhelp' =>
    rw [hread] at hread'
    cases hread'
    rw [hhelp] at hhelp'
    cases hhelp'
  | @idle x hloads hnone => exact ⟨x, hloads, fun hsome => absurd hnone hsome⟩
  | @printed x failure hloads hgo hsome hprint hcompared =>
    have hread' := hloads.settings
    rw [hread] at hread'
    cases hread'
    rw [hstdout] at hprint
    cases hprint
  | @written x t' records failure hloads hgo hsome hstdout hwrite hcompared =>
    refine ⟨x, hloads, fun _ hne o ho shown => ?_⟩
    refine (wrote_of_writeAll hwrite).readFile_eq ?_ ho shown
    simp only [Load.outputs, List.pairwise_cons, List.mem_singleton, forall_eq]
    exact ⟨hne, by simp⟩

theorem Effect.stdout_cases (h : Effect t inv t' stdout failure) :
    stdout = [] ∨
      (∃ s, Settings.read inv.args inv.env = .ok s ∧ s.help = true ∧ stdout = helpText) ∨
      ∃ x, Loads t inv x ∧ x.settings.stdout = true ∧ x.functions ≠ [] ∧
        stdout = x.header ++ x.implementation := by
  cases h with
  | helped hread hhelp => exact Or.inr (Or.inl ⟨_, hread, hhelp, rfl⟩)
  | printed hloads hgo hsome hprint hcompared =>
    exact Or.inr (Or.inr ⟨_, hloads, hprint, hsome, rfl⟩)
  | _ => exact Or.inl rfl

/-- A run touches the places of the two generated files and missing directories on the way to them,
and nothing if there is nothing to write. If it succeeds the two files hold what was generated from
the loaded files, where their paths name different places, as different paths do from an absolute
directory. It prints nothing, the help text, or the two generated texts. -/
theorem run_touches_only_outputs (t : FileTree) (inv : Invocation) :
    ((run t inv).tree = t ∨ ∃ x written, Loads t inv x ∧
      (written = x.outputs inv.workDir ∨ ∃ e, (run t inv).failure = some (.output e) ∧
        Interrupted (x.outputs inv.workDir) e written) ∧
      (t.faults = [] → written <+: x.outputs inv.workDir) ∧
      ∀ l, Touched t.locationOf (x.outputs inv.workDir) written l (t.lookup l)
        ((run t inv).tree.lookup l)) ∧
    (∀ s, Settings.read inv.args inv.env = .ok s → s.help = false → s.stdout = false →
      (run t inv).failure = none →
      ∃ x, Loads t inv x ∧ (x.functions ≠ [] →
        t.locationOf (x.headerPath inv.workDir) ≠ t.locationOf (x.implementationPath inv.workDir) →
        ∀ o ∈ x.outputs inv.workDir, ∀ shown, (run t inv).tree.readFile shown o.1 = .ok o.2)) ∧
    (∀ x, Loads t inv x → Path.isAbsolute inv.workDir = true →
      x.headerPath inv.workDir ≠ x.implementationPath inv.workDir →
      t.locationOf (x.headerPath inv.workDir) ≠ t.locationOf (x.implementationPath inv.workDir)) ∧
    (Idle t inv → (run t inv).tree = t) ∧
    ((run t inv).stdout = [] ∨
      (∃ s, Settings.read inv.args inv.env = .ok s ∧ s.help = true ∧
        (run t inv).stdout = helpText) ∨
      ∃ x, Loads t inv x ∧ x.settings.stdout = true ∧ x.functions ≠ [] ∧
        (run t inv).stdout = x.header ++ x.implementation) := by
  have heffect := effect_run t inv
  refine ⟨heffect.touched, ?_, fun x hloads => hloads.locationOf_ne, heffect.tree_eq_of_idle,
    heffect.stdout_cases⟩
  intro s hread hhelp hstdout hsuccess
  rw [hsuccess] at heffect
  exact heffect.readFile_eq hread hhelp hstdout

/-- A run in the current directory that makes the directories `gen` and `gen/c` for the generated
files. Had it been cancelled beforehand, it would have left the tree alone. -/
theorem run_touches_only_outputs_new_directories :
    let source := bytes "function F() return T is end F;"
    let t : FileTree :=
      { entries := [([bytes "p"], .directory), ([bytes "p", bytes "src"], .directory),
          ([bytes "p", bytes "src", bytes "f.adb"], .file source)]
        current := [bytes "p"] }
    let inv : Invocation :=
      { args := [bytes "src", bytes "-o", bytes "gen/c"], env := {}, workDir := bytes "."
        cancelled := false }
    let x : Load :=
      { settings :=
          { inputs := [bytes "src"], config := [], out := bytes "gen/c", logLevel := .info
            jobs := 0, stdout := false, noCompare := false, diagnostics := false, help := false }
        manifest := Manifest.default (bytes ".")
        found := record .debug "No manifest found, using defaults" []
        files := [⟨bytes "f.adb", bytes "f.adb", source, 31⟩] }
    Loads t inv x ∧ (run t inv).failure = none ∧
      (run t inv).tree.lookup [bytes "p", bytes "gen"] = some .directory ∧
      (run t inv).tree.readFile [] (bytes "gen/c/ada_math_generated.h") = .ok x.header ∧
      (run t { inv with cancelled := true }).tree = t := by
  intro source t inv x
  have hloads : Loads t inv x := ⟨by decide +kernel, rfl, by decide +kernel, by decide +kernel⟩
  have hsuccess : (run t inv).failure = none := by decide +kernel
  obtain ⟨-, hwritten, -⟩ := run_touches_only_outputs t inv
  obtain ⟨-, -, -, hidle, -⟩ := run_touches_only_outputs t { inv with cancelled := true }
  obtain ⟨y, hy, hfiles⟩ := hwritten x.settings hloads.settings rfl rfl hsuccess
  obtain rfl := hloads.unique hy
  have hpath : x.headerPath inv.workDir = bytes "gen/c/ada_math_generated.h" := by decide +kernel
  have hheader : (x.headerPath inv.workDir, x.header) ∈ x.outputs inv.workDir := List.mem_cons_self
  have hfound := hfiles (by decide +kernel) (by decide +kernel) _ hheader []
  rw [hpath] at hfound
  exact ⟨hloads, hsuccess, by decide +kernel, hfound, hidle (.cancelled rfl)⟩

/-! ## What a failed run leaves -/

theorem Effect.tree_eq_of_early_failure {e : Failure} (h : Effect t inv t' stdout (some e))
    (houtput : ∀ cause, e ≠ .output cause) (hcomparison : ∀ cause, e ≠ .comparison cause) :
    t' = t := by
  cases h with
  | unwritten _ _ _ _ _ => exact absurd rfl (houtput _)
  | written _ _ _ _ _ hcompared =>
    obtain hnone | ⟨cause, hcause⟩ := hcompared
    · cases hnone
    · cases hcause
      exact absurd rfl (hcomparison cause)
  | _ => rfl

/-- If writing failed, just what was written until then is new. -/
theorem Effect.contents_of_output_failure {cause : PathError}
    (h : Effect t inv t' stdout (some (.output cause))) :
    ∃ x written, Loads t inv x ∧ Interrupted (x.outputs inv.workDir) cause written ∧
      t'.contents = overwritten t.locationOf written t.contents ∧
      (t.faults = [] → ∃ o behind, x.outputs inv.workDir = written ++ o :: behind ∧
        ∀ shown data, t'.readFile shown o.1 ≠ .ok data) := by
  cases h with
  | printed _ _ _ _ hcompared => simp at hcompared
  | written _ _ _ _ _ hcompared => simp at hcompared
  | @unwritten x t' records e hloads hgo hsome hstdout hwrite =>
    obtain ⟨written, middle, o, hstopped⟩ := exists_stopped_of_writeAll hwrite
    refine ⟨x, written, hloads, hstopped.interrupted, ?_, fun hfaults => ?_⟩
    · rw [hstopped.way.contents_eq, hstopped.wrote.contents_eq]
    · obtain ⟨⟨behind, houtputs⟩, hunread⟩ := hstopped.unread hfaults
      exact ⟨o, behind, houtputs, hunread⟩

theorem Effect.contents_of_comparison_failure {cause : Reference.Error}
    (h : Effect t inv t' stdout (some (.comparison cause))) :
    ∃ x, Loads t inv x ∧
      (x.settings.stdout = true ∧ t' = t ∨
        x.settings.stdout = false ∧
        t'.contents = overwritten t.locationOf (x.outputs inv.workDir) t.contents) := by
  cases h with
  | printed hloads _ _ hstdout _ => exact ⟨_, hloads, Or.inl ⟨hstdout, rfl⟩⟩
  | written hloads _ _ hstdout hwrite _ =>
    exact ⟨_, hloads, Or.inr ⟨hstdout, (wrote_of_writeAll hwrite).contents_eq⟩⟩

/-- A run that fails before it writes leaves the tree as it was. If writing fails, the outputs
before the one that failed are new as a whole, the one that failed is as before or has only the
first bytes of its text, and all else is as before; in a tree without faults the one that failed
cannot be read. If the comparison fails, both files are new as a whole, or the run printed them and
nothing changed. -/
theorem failed_run_contents (t : FileTree) (inv : Invocation) (e : Failure)
    (hfailed : (run t inv).failure = some e) :
    ((∀ cause, e ≠ .output cause) → (∀ cause, e ≠ .comparison cause) → (run t inv).tree = t) ∧
    (∀ cause, e = .output cause → ∃ x written, Loads t inv x ∧
      Interrupted (x.outputs inv.workDir) cause written ∧
      (run t inv).tree.contents = overwritten t.locationOf written t.contents ∧
      (t.faults = [] → ∃ o behind, x.outputs inv.workDir = written ++ o :: behind ∧
        ∀ shown data, (run t inv).tree.readFile shown o.1 ≠ .ok data)) ∧
    (∀ cause, e = .comparison cause → ∃ x, Loads t inv x ∧
      (x.settings.stdout = true ∧ (run t inv).tree = t ∨
        x.settings.stdout = false ∧
        (run t inv).tree.contents =
          overwritten t.locationOf (x.outputs inv.workDir) t.contents)) := by
  have heffect := effect_run t inv
  rw [hfailed] at heffect
  refine ⟨heffect.tree_eq_of_early_failure, ?_, ?_⟩
  · rintro cause rfl
    exact heffect.contents_of_output_failure
  · rintro cause rfl
    exact heffect.contents_of_comparison_failure

/-- A directory stands where the implementation is to be written. The run fails, and the header of
an earlier run has been replaced. -/
theorem header_replaced_by_failed_run :
    let t : FileTree := { entries := [([bytes "p"], .directory),
      ([bytes "p", bytes "ada_math_generated.c"], .directory),
      ([bytes "p", bytes "ada_math_generated.h"], .file (bytes "old")),
      ([bytes "p", bytes "library.adb"], .file (bytes "function F() return T is end F;"))] }
    let inv : Invocation := { args := [], env := {}, workDir := bytes "/p", cancelled := false }
    (run t inv).failure =
        some (.output ⟨.openFile, bytes "/p/ada_math_generated.c", .isDirectory⟩) ∧
      t.contents [bytes "p", bytes "ada_math_generated.h"] = some (bytes "old") ∧
      (run t inv).tree.contents [bytes "p", bytes "ada_math_generated.h"] ≠ some (bytes "old") := by
  decide +kernel

/-- The implementation of an earlier run cannot be opened for writing. It stays, and the new header
is beside it. -/
theorem failed_run_contents_refused_implementation :
    let header := [bytes "p", bytes "ada_math_generated.h"]
    let implementation := [bytes "p", bytes "ada_math_generated.c"]
    let t : FileTree :=
      { entries := [([bytes "p"], .directory), (implementation, .file (bytes "old")),
          (header, .file (bytes "old")),
          ([bytes "p", bytes "library.adb"], .file (bytes "function F() return T is end F;"))]
        faults := [(implementation, .refused (.other (bytes "permission denied")))] }
    let inv : Invocation := { args := [], env := {}, workDir := bytes "/p", cancelled := false }
    let cause : PathError :=
      ⟨.openFile, bytes "/p/ada_math_generated.c", .other (bytes "permission denied")⟩
    (run t inv).failure = some (.output cause) ∧
      (∃ x written, Loads t inv x ∧ Interrupted (x.outputs inv.workDir) cause written ∧
        (run t inv).tree.contents = overwritten t.locationOf written t.contents) ∧
      (run t inv).tree.contents header ≠ some (bytes "old") ∧
      (run t inv).tree.contents implementation = some (bytes "old") := by
  intro header implementation t inv cause
  have hfailed : (run t inv).failure = some (.output cause) := by decide +kernel
  obtain ⟨-, houtput, -⟩ := failed_run_contents t inv (.output cause) hfailed
  obtain ⟨x, written, hloads, hinterrupted, hcontents, -⟩ := houtput cause rfl
  exact ⟨hfailed, ⟨x, written, hloads, hinterrupted, hcontents⟩, by decide +kernel,
    by decide +kernel⟩

end Run

end AdaToC
