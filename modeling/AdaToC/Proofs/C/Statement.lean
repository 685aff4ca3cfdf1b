import AdaToC.C.Body
import AdaToC.Proofs.Ada.Words
import AdaToC.Proofs.Text.Pieces
import Mathlib.Data.List.TakeWhile

/-!
# The statements of a block and what they do

A generated block is a text. Here it gets a meaning: its lines are read as statements, and the
statements are carried out one after the other. There are guards `if (v == 0.0f) {` and
`if (v < 0.0f) {`, closed by a line `}`, and `return` with one of seven forms of expression; blank
lines and comments are passed over.

Values come from any `Arithmetic`, of which little is asked. Running a block ends with a value or
with a `BlockError`: a name without a value, a line that is no statement, or no `return` at all.

`Written` says how the statements are written, form by form, and knows nothing of reading.
`Statement.read?_eq_some_iff` joins the two: a line is read as a statement exactly if it is written
as that statement.
-/

namespace AdaToC.C

universe u

/-- What a block computes with: numbers and something that is not a number, the operators of C on
them, and three functions of the mathematical library about which nothing is known. -/
structure Arithmetic (V : Type u) where
  zero : V
  nan : V
  add : V → V → V
  sub : V → V → V
  mul : V → V → V
  div : V → V → V
  sqrtf : V → V
  powf : V → V → V
  fabsf : V → V
  /-- The operator `==`. Two values that it takes for equal need not be the same. -/
  eq : V → V → Bool
  lt : V → V → Bool
  lt_irrefl : ∀ v, lt v v = false
  lt_trans : ∀ {v w x}, lt v w = true → lt w x = true → lt v x = true

theorem Arithmetic.lt_asymm {V : Type u} (ar : Arithmetic V) {v w : V} (h : ar.lt v w = true) :
    ar.lt w v = false := by
  rw [← Bool.not_eq_true]
  intro hback
  have hself := ar.lt_trans h hback
  rw [ar.lt_irrefl] at hself
  cases hself

/-! ## Statements -/

inductive Operator where
  | plus
  | minus
  | times
  | divided
  deriving DecidableEq, Repr

inductive Order where
  | less
  | greater
  deriving DecidableEq, Repr

/-- What a guard asks of a value. -/
inductive Test where
  | isZero
  | isNegative
  deriving DecidableEq, Repr

/-- What a `return` gives back. Operands are names. -/
inductive Expression where
  | nan
  | zero
  | binary (op : Operator) (a b : Bytes)
  | sqrt (x : Bytes)
  | abs (x : Bytes)
  | power (a b : Bytes)
  /-- The value of `c` if `a` and `b` are so ordered, and that of `d` otherwise. -/
  | choice (order : Order) (a b c d : Bytes)
  deriving DecidableEq, Repr

inductive Statement where
  /-- Goes on below if the value of `v` passes the test, and behind the next `}` otherwise. -/
  | guard (test : Test) (v : Bytes)
  | returns (e : Expression)
  deriving DecidableEq, Repr

def Operator.byte : Operator → UInt8
  | .plus => 0x2B
  | .minus => 0x2D
  | .times => 0x2A
  | .divided => 0x2F

def Order.byte : Order → UInt8
  | .less => 0x3C
  | .greater => 0x3E

/-- A mark between its two operands, with a blank on either side. -/
def spaced (mark : UInt8) : Bytes :=
  [0x20, mark, 0x20]

def Test.text : Test → Bytes
  | .isZero => bytes " == 0.0f"
  | .isNegative => bytes " < 0.0f"

/-- A name of C: one or more letters, digits and underscores of ASCII. -/
def IsName (w : Bytes) : Prop :=
  w ≠ [] ∧ ∀ b ∈ w, Ada.isWordByte b

instance (w : Bytes) : Decidable (IsName w) :=
  haveI := List.decidableBAll (fun b => Ada.isWordByte b = true) w
  inferInstanceAs (Decidable (_ ∧ _))

/-- What may stand behind `return NAN;`: nothing, or a comment. -/
def isRemark (s : Bytes) : Bool :=
  s.isEmpty || (bytes "//").isPrefixOf (s.dropWhile (· == 0x20))

/-- How an expression is written, with the semicolon behind it. -/
inductive Expression.Written : Expression → Bytes → Prop where
  | nan {r : Bytes} (hr : isRemark r) : Written .nan (bytes "NAN;" ++ r)
  | zero : Written .zero (bytes "0.0f;")
  | binary (op : Operator) {a b : Bytes} (ha : IsName a) (hb : IsName b) :
      Written (.binary op a b) (a ++ spaced op.byte ++ b ++ bytes ";")
  | sqrt {x : Bytes} (hx : IsName x) : Written (.sqrt x) (bytes "sqrtf(" ++ x ++ bytes ");")
  | abs {x : Bytes} (hx : IsName x) : Written (.abs x) (bytes "fabsf(" ++ x ++ bytes ");")
  | power {a b : Bytes} (ha : IsName a) (hb : IsName b) :
      Written (.power a b) (bytes "powf(" ++ a ++ bytes ", " ++ b ++ bytes ");")
  | choice (order : Order) {a b c d : Bytes} (ha : IsName a) (hb : IsName b) (hc : IsName c)
      (hd : IsName d) :
      Written (.choice order a b c d)
        (a ++ spaced order.byte ++ b ++ bytes " ? " ++ c ++ bytes " : " ++ d ++ bytes ";")

/-- How a statement is written, without white space around it. -/
inductive Statement.Written : Statement → Bytes → Prop where
  | guard (test : Test) {v : Bytes} (hv : IsName v) :
      Written (.guard test v) (bytes "if (" ++ v ++ test.text ++ bytes ") \x7b")
  | returns {e : Expression} {s : Bytes} (he : e.Written s) :
      Written (.returns e) (bytes "return " ++ s)

/-! ## Reading statements -/

/-- The name at the front of a text, as long as it can be, and the text behind it. -/
def identifier? (s : Bytes) : Option (Bytes × Bytes) :=
  let w := s.takeWhile Ada.isWordByte
  if w.isEmpty then none else some (w, s.dropWhile Ada.isWordByte)

def Operator.ofByte? : UInt8 → Option Operator
  | 0x2B => some .plus
  | 0x2D => some .minus
  | 0x2A => some .times
  | 0x2F => some .divided
  | _ => none

def Order.ofByte? : UInt8 → Option Order
  | 0x3C => some .less
  | 0x3E => some .greater
  | _ => none

/-- Reads `x);` or `x, y);` behind the name of a function and its parenthesis. -/
def Expression.readCall? (function s : Bytes) : Option Expression := do
  let (x, s) ← identifier? s
  if s = bytes ");" then
    if function = bytes "sqrtf" then some (.sqrt x)
    else if function = bytes "fabsf" then some (.abs x)
    else none
  else
    let s ← s.dropPrefix? (bytes ", ")
    let (y, s) ← identifier? s
    if function = bytes "powf" ∧ s = bytes ");" then some (.power x y) else none

/-- Reads what stands behind `a` and a mark with a blank on either side. -/
def Expression.readBehind? (a : Bytes) (mark : UInt8) (s : Bytes) : Option Expression := do
  let (b, s) ← identifier? s
  match Operator.ofByte? mark with
  | some op => if s = bytes ";" then some (.binary op a b) else none
  | none =>
    let order ← Order.ofByte? mark
    let s ← s.dropPrefix? (bytes " ? ")
    let (c, s) ← identifier? s
    let s ← s.dropPrefix? (bytes " : ")
    let (d, s) ← identifier? s
    if s = bytes ";" then some (.choice order a b c d) else none

/-- Reads an expression and its semicolon. Every form starts with a name or a digit, and the byte
behind it tells the forms apart. -/
def Expression.read? (s : Bytes) : Option Expression := do
  let (a, s) ← identifier? s
  match s with
  | 0x3B :: r => if a = bytes "NAN" ∧ isRemark r then some .nan else none
  | 0x2E :: r => if a = bytes "0" ∧ r = bytes "0f;" then some .zero else none
  | 0x28 :: r => Expression.readCall? a r
  | 0x20 :: mark :: 0x20 :: r => Expression.readBehind? a mark r
  | _ => none

def Test.ofText? (s : Bytes) : Option Test :=
  if s = bytes " == 0.0f) \x7b" then some .isZero
  else if s = bytes " < 0.0f) \x7b" then some .isNegative
  else none

def Statement.read? (s : Bytes) : Option Statement :=
  match s.dropPrefix? (bytes "return ") with
  | some e => (Expression.read? e).map .returns
  | none => do
    let s ← s.dropPrefix? (bytes "if (")
    let (v, s) ← identifier? s
    let test ← Test.ofText? s
    some (.guard test v)

/-! ## Running a block -/

/-- Why a block gives no value. -/
inductive BlockError where
  | undefinedName (name : Bytes)
  | unsupportedLine (line : Bytes)
  | noReturn
  deriving DecidableEq, Repr

section Semantics

variable {V : Type u} (ar : Arithmetic V) (env : Bytes → Option V)

def valueOf (name : Bytes) : Except BlockError V :=
  match env name with
  | some v => .ok v
  | none => .error (.undefinedName name)

def Operator.apply : Operator → V → V → V
  | .plus => ar.add
  | .minus => ar.sub
  | .times => ar.mul
  | .divided => ar.div

def Order.holds : Order → V → V → Bool
  | .less, v, w => ar.lt v w
  | .greater, v, w => ar.lt w v

def Test.holds : Test → V → Bool
  | .isZero, v => ar.eq v ar.zero
  | .isNegative, v => ar.lt v ar.zero

def Expression.eval : Expression → Except BlockError V
  | .nan => .ok ar.nan
  | .zero => .ok ar.zero
  | .binary op a b => do
    let v ← valueOf env a
    let w ← valueOf env b
    return op.apply ar v w
  | .sqrt x => do return ar.sqrtf (← valueOf env x)
  | .abs x => do return ar.fabsf (← valueOf env x)
  | .power a b => do
    let v ← valueOf env a
    let w ← valueOf env b
    return ar.powf v w
  | .choice order a b c d => do
    let v ← valueOf env a
    let w ← valueOf env b
    let x ← valueOf env c
    let y ← valueOf env d
    return if order.holds ar v w then x else y

/-- Carries out the lines of a block. While `skipping`, lines are passed over up to the next `}`. -/
def runLines : (skipping : Bool) → List Bytes → Except BlockError V
  | _, [] => .error .noReturn
  | skipping, raw :: rest =>
    let line := raw.trim
    if line.isEmpty || (bytes "//").isPrefixOf line then runLines skipping rest
    else if line = bytes "\x7d" then runLines false rest
    else if skipping then runLines true rest
    else match Statement.read? line with
      | some (.guard test v) => do
        let x ← valueOf env v
        runLines (!test.holds ar x) rest
      | some (.returns e) => e.eval ar env
      | none => .error (.unsupportedLine line)

def run (block : Bytes) : Except BlockError V :=
  runLines ar env false (block.split 0x0A)

end Semantics

/-! ## Names -/

theorem identifier?_eq_some_iff {s w rest : Bytes} :
    identifier? s = some (w, rest) ↔
      IsName w ∧ s = w ++ rest ∧ rest.takeWhile Ada.isWordByte = [] := by
  constructor
  · intro h
    unfold identifier? at h
    simp only [List.isEmpty_iff] at h
    split at h
    · cases h
    · next hne =>
      obtain ⟨rfl, rfl⟩ := Prod.mk.inj (Option.some.inj h)
      refine ⟨⟨hne, ?_⟩, List.takeWhile_append_dropWhile.symm, ?_⟩
      · intro b hb
        exact List.all_eq_true.mp List.all_takeWhile b hb
      · -- the name is as long as it can be, so no byte of a name comes next
        rw [List.takeWhile_eq_nil_iff]
        intro hlen
        exact List.dropWhile_get_zero_not Ada.isWordByte s hlen
  · rintro ⟨⟨hne, hw⟩, rfl, hrest⟩
    have hdrop : rest.dropWhile Ada.isWordByte = rest := by
      have hwhole := List.takeWhile_append_dropWhile (p := Ada.isWordByte) (l := rest)
      rwa [hrest, List.nil_append] at hwhole
    unfold identifier?
    rw [List.takeWhile_append_of_pos hw, List.dropWhile_append_of_pos hw, hrest, hdrop,
      List.append_nil]
    simp [hne]

theorem identifier?_append_cons {w : Bytes} (hw : IsName w) {b : UInt8}
    (hb : Ada.isWordByte b = false) (s : Bytes) : identifier? (w ++ b :: s) = some (w, b :: s) :=
  identifier?_eq_some_iff.mpr ⟨hw, rfl, by rw [List.takeWhile_cons_of_neg (by simp [hb])]⟩

/-! ## What is read is what is written -/

theorem Operator.ofByte?_byte (op : Operator) : Operator.ofByte? op.byte = some op := by
  cases op <;> rfl

theorem Operator.byte_of_ofByte? {mark : UInt8} {op : Operator}
    (h : Operator.ofByte? mark = some op) : op.byte = mark := by
  unfold Operator.ofByte? at h
  split at h <;> cases h <;> rfl

theorem Order.ofByte?_byte (order : Order) : Order.ofByte? order.byte = some order := by
  cases order <;> rfl

theorem Order.byte_of_ofByte? {mark : UInt8} {order : Order}
    (h : Order.ofByte? mark = some order) : order.byte = mark := by
  unfold Order.ofByte? at h
  split at h <;> cases h <;> rfl

theorem Order.not_operator (order : Order) : Operator.ofByte? order.byte = none := by
  cases order <;> rfl

theorem Expression.written_of_readCall? {function s : Bytes} {e : Expression}
    (h : Expression.readCall? function s = some e) : e.Written (function ++ 0x28 :: s) := by
  simp only [Expression.readCall?, Option.bind_eq_bind, Option.bind_eq_some_iff] at h
  obtain ⟨⟨x, rest⟩, hx, h⟩ := h
  obtain ⟨hname, rfl, -⟩ := identifier?_eq_some_iff.mp hx
  simp only at h
  split at h
  · next hrest =>
    rw [hrest]
    split at h
    · next hfunction =>
      cases h
      rw [hfunction]
      have hwritten := Expression.Written.sqrt hname
      simpa [show bytes "sqrtf(" = bytes "sqrtf" ++ [0x28] from by decide] using hwritten
    split at h
    · next hfunction =>
      cases h
      rw [hfunction]
      have hwritten := Expression.Written.abs hname
      simpa [show bytes "fabsf(" = bytes "fabsf" ++ [0x28] from by decide] using hwritten
    · cases h
  · simp only [Option.bind_eq_some_iff] at h
    obtain ⟨behind, hcomma, ⟨y, last⟩, hy, h⟩ := h
    obtain rfl := Bytes.dropPrefix?_eq_some_iff_append.mp hcomma
    obtain ⟨hname', rfl, -⟩ := identifier?_eq_some_iff.mp hy
    simp only at h
    split at h
    · next hend =>
      cases h
      rw [hend.1, hend.2]
      have hwritten := Expression.Written.power hname hname'
      simpa [show bytes "powf(" = bytes "powf" ++ [0x28] from by decide] using hwritten
    · cases h

theorem Expression.written_of_readBehind? {a s : Bytes} {mark : UInt8} {e : Expression}
    (ha : IsName a) (h : Expression.readBehind? a mark s = some e) :
    e.Written (a ++ spaced mark ++ s) := by
  simp only [Expression.readBehind?, Option.bind_eq_bind, Option.bind_eq_some_iff] at h
  obtain ⟨⟨b, rest⟩, hread, h⟩ := h
  obtain ⟨hb, rfl, -⟩ := identifier?_eq_some_iff.mp hread
  simp only at h
  split at h
  · next op hop =>
    rw [← Operator.byte_of_ofByte? hop]
    split at h
    · next hrest =>
      cases h
      rw [hrest, ← List.append_assoc]
      exact .binary op ha hb
    · cases h
  · simp only [Option.bind_eq_some_iff] at h
    obtain ⟨order, horder, s₁, hquestion, ⟨c, s₂⟩, hreadc, s₃, hcolon, ⟨d, s₄⟩, hreadd, h⟩ := h
    obtain rfl := Bytes.dropPrefix?_eq_some_iff_append.mp hquestion
    obtain ⟨hc, rfl, -⟩ := identifier?_eq_some_iff.mp hreadc
    obtain rfl := Bytes.dropPrefix?_eq_some_iff_append.mp hcolon
    obtain ⟨hd, rfl, -⟩ := identifier?_eq_some_iff.mp hreadd
    simp only at h
    rw [← Order.byte_of_ofByte? horder]
    split at h
    · next hrest =>
      cases h
      rw [hrest]
      have hwritten := Expression.Written.choice order ha hb hc hd
      simpa only [List.append_assoc] using hwritten
    · cases h

theorem Expression.written_of_read? {s : Bytes} {e : Expression}
    (h : Expression.read? s = some e) : e.Written s := by
  simp only [Expression.read?, Option.bind_eq_bind, Option.bind_eq_some_iff] at h
  obtain ⟨⟨a, rest⟩, hread, h⟩ := h
  obtain ⟨ha, rfl, -⟩ := identifier?_eq_some_iff.mp hread
  simp only at h
  -- by the byte behind the first name: `;`, `.`, `(`, a blank, or none of these
  split at h
  · split at h
    · next r hr =>
      cases h
      rw [hr.1]
      exact .nan hr.2
    · cases h
  · split at h
    · next r hr =>
      cases h
      rw [hr.1, hr.2]
      exact .zero
    · cases h
  · exact written_of_readCall? h
  · have hwritten := written_of_readBehind? ha h
    rwa [List.append_assoc] at hwritten
  · cases h

theorem Expression.read?_name_paren {function : Bytes} (hf : IsName function) (s : Bytes) :
    Expression.read? (function ++ 0x28 :: s) = Expression.readCall? function s := by
  rw [Expression.read?, identifier?_append_cons hf (by decide)]
  rfl

theorem Expression.read?_name_spaced {a : Bytes} (ha : IsName a) (mark : UInt8) (s : Bytes) :
    Expression.read? (a ++ spaced mark ++ s) = Expression.readBehind? a mark s := by
  rw [List.append_assoc, spaced, List.cons_append, Expression.read?,
    identifier?_append_cons ha (by decide)]
  rfl

theorem identifier?_append_close {x : Bytes} (hx : IsName x) :
    identifier? (x ++ bytes ");") = some (x, bytes ");") := by
  rw [show bytes ");" = [0x29, 0x3B] from by decide]
  exact identifier?_append_cons hx (by decide) _

theorem identifier?_append_semicolon {x : Bytes} (hx : IsName x) :
    identifier? (x ++ bytes ";") = some (x, bytes ";") := by
  rw [show bytes ";" = [0x3B] from by decide]
  exact identifier?_append_cons hx (by decide) _

theorem Expression.read?_of_written {s : Bytes} {e : Expression} (h : e.Written s) :
    Expression.read? s = some e := by
  -- form by form: each name ends at the mark behind it
  cases h with
  | @nan r hr =>
    rw [show bytes "NAN;" ++ r = bytes "NAN" ++ 0x3B :: r from rfl, Expression.read?,
      identifier?_append_cons (by decide) (by decide)]
    simp [hr]
  | zero => decide
  | @binary op a b ha hb =>
    rw [List.append_assoc, read?_name_spaced ha, Expression.readBehind?,
      identifier?_append_semicolon hb]
    simp [op.ofByte?_byte]
  | @sqrt x hx =>
    rw [show bytes "sqrtf(" = bytes "sqrtf" ++ [0x28] from by decide, List.append_assoc,
      List.append_assoc, List.singleton_append, read?_name_paren (by decide), Expression.readCall?,
      identifier?_append_close hx]
    simp
  | @abs x hx =>
    rw [show bytes "fabsf(" = bytes "fabsf" ++ [0x28] from by decide, List.append_assoc,
      List.append_assoc, List.singleton_append, read?_name_paren (by decide), Expression.readCall?,
      identifier?_append_close hx]
    simp [show bytes "fabsf" ≠ bytes "sqrtf" from by decide]
  | @power a b ha hb =>
    have hcomma : bytes ", " ++ (b ++ bytes ");") = 0x2C :: 0x20 :: (b ++ bytes ");") := rfl
    -- a comma comes next, so this is not a call with one operand
    have hother : bytes ", " ++ (b ++ bytes ");") ≠ bytes ");" := by
      rw [hcomma, show bytes ");" = [0x29, 0x3B] from by decide]
      simp
    rw [show bytes "powf(" = bytes "powf" ++ [0x28] from by decide]
    simp only [List.append_assoc, List.cons_append, List.nil_append]
    rw [read?_name_paren (by decide), Expression.readCall?, hcomma,
      identifier?_append_cons ha (by decide), ← hcomma]
    simp [hother, Bytes.dropPrefix?_eq_some_iff_append.mpr, identifier?_append_close hb]
  | @choice order a b c d ha hb hc hd =>
    have hdrop : ∀ p r : Bytes, (p ++ r).dropPrefix? p = some r :=
      fun p r => Bytes.dropPrefix?_eq_some_iff_append.mpr rfl
    have hreadb : ∀ r : Bytes, identifier? (b ++ (bytes " ? " ++ r)) = some (b, bytes " ? " ++ r) :=
      fun r => identifier?_append_cons hb (by decide) _
    have hreadc : ∀ r : Bytes, identifier? (c ++ (bytes " : " ++ r)) = some (c, bytes " : " ++ r) :=
      fun r => identifier?_append_cons hc (by decide) _
    simp only [List.append_assoc]
    rw [← List.append_assoc, read?_name_spaced ha, Expression.readBehind?, hreadb]
    simp [order.not_operator, order.ofByte?_byte, hdrop, hreadc, identifier?_append_semicolon hd]

theorem Test.ofText?_eq_some_iff {s : Bytes} {test : Test} :
    Test.ofText? s = some test ↔ s = test.text ++ bytes ") \x7b" := by
  constructor
  · intro h
    unfold Test.ofText? at h
    split at h
    · next hs =>
      cases h
      rw [hs]
      decide
    split at h
    · next hs =>
      cases h
      rw [hs]
      decide
    · cases h
  · rintro rfl
    cases test <;> decide

/-- A line is read as a statement exactly if it is written as one. -/
theorem Statement.read?_eq_some_iff {s : Bytes} {st : Statement} :
    Statement.read? s = some st ↔ st.Written s := by
  constructor
  · intro h
    unfold Statement.read? at h
    split at h
    · next rest hreturn =>
      obtain rfl := Bytes.dropPrefix?_eq_some_iff_append.mp hreturn
      obtain ⟨e, he, rfl⟩ := Option.map_eq_some_iff.mp h
      exact .returns (Expression.written_of_read? he)
    · simp only [Option.bind_eq_bind, Option.bind_eq_some_iff] at h
      obtain ⟨s₁, hif, ⟨v, s₂⟩, hread, test, htest, h⟩ := h
      cases h
      obtain rfl := Bytes.dropPrefix?_eq_some_iff_append.mp hif
      obtain ⟨hv, rfl, -⟩ := identifier?_eq_some_iff.mp hread
      have hwritten := Statement.Written.guard test hv
      rw [show s₂ = _ from Test.ofText?_eq_some_iff.mp htest]
      simpa only [List.append_assoc] using hwritten
  · intro h
    cases h with
    | @guard test v hv =>
      have hread : identifier? (v ++ (test.text ++ bytes ") \x7b")) =
          some (v, test.text ++ bytes ") \x7b") := by
        cases test <;> exact identifier?_append_cons hv (by decide) _
      have hreturn : (bytes "if (" ++ (v ++ (test.text ++ bytes ") \x7b"))).dropPrefix?
          (bytes "return ") = none := rfl
      simp only [List.append_assoc]
      rw [Statement.read?, hreturn]
      simp [Bytes.dropPrefix?_eq_some_iff_append.mpr, hread, Test.ofText?_eq_some_iff.mpr rfl]
    | @returns e s he =>
      rw [Statement.read?, Bytes.dropPrefix?_eq_some_iff_append.mpr rfl]
      simp [Expression.read?_of_written he]

/-! ## Running written lines -/

/-- Text of ASCII on one line. -/
def IsPlain (s : Bytes) : Prop :=
  ∀ b ∈ s, b < 0x80 ∧ b ≠ 0x0A

instance (s : Bytes) : Decidable (IsPlain s) :=
  List.decidableBAll (fun b => b < 0x80 ∧ b ≠ 0x0A) s

theorem isPlain_append {s t : Bytes} : IsPlain (s ++ t) ↔ IsPlain s ∧ IsPlain t :=
  List.forall_mem_append

theorem IsPlain.newline_not_mem {s : Bytes} (hs : IsPlain s) : 0x0A ∉ s :=
  fun hmem => (hs _ hmem).2 rfl

theorem IsName.isPlain {w : Bytes} (hw : IsName w) : IsPlain w := by
  intro b hb
  have hword := hw.2 b hb
  refine ⟨Ada.lt_of_isWordByte hword, ?_⟩
  rintro rfl
  exact absurd hword (by decide)

theorem isPlain_spaced_operator (op : Operator) : IsPlain (spaced op.byte) := by
  cases op <;> decide

theorem isPlain_spaced_order (order : Order) : IsPlain (spaced order.byte) := by
  cases order <;> decide

/-- But for the comment behind `NAN`, which may be anything, a written expression is plain and ends
with a semicolon. -/
theorem Expression.Written.plain {e : Expression} {s : Bytes} (h : e.Written s) (hne : e ≠ .nan) :
    IsPlain s ∧ s.getLast? = some 0x3B := by
  have hsemicolon : ∀ t : Bytes, (t ++ bytes ";").getLast? = some 0x3B := by
    intro t
    rw [show bytes ";" = [0x3B] from by decide]
    simp
  have hclose : ∀ t : Bytes, (t ++ bytes ");").getLast? = some 0x3B := by
    intro t
    rw [show bytes ");" = [0x29, 0x3B] from by decide]
    simp
  cases h with
  | nan hr => exact absurd rfl hne
  | zero => decide
  | binary op ha hb =>
    refine ⟨?_, hsemicolon _⟩
    simp only [isPlain_append, ha.isPlain, hb.isPlain, isPlain_spaced_operator, true_and]
    decide
  | sqrt hx =>
    refine ⟨?_, hclose _⟩
    simp only [isPlain_append, hx.isPlain]
    decide
  | abs hx =>
    refine ⟨?_, hclose _⟩
    simp only [isPlain_append, hx.isPlain]
    decide
  | power ha hb =>
    refine ⟨?_, hclose _⟩
    simp only [isPlain_append, ha.isPlain, hb.isPlain]
    decide
  | choice order ha hb hc hd =>
    refine ⟨?_, hsemicolon _⟩
    simp only [isPlain_append, ha.isPlain, hb.isPlain, hc.isPlain, hd.isPlain,
      isPlain_spaced_order, true_and]
    decide

/-- A written statement starts with one of two letters, so it is neither blank nor a comment nor a
closing brace. -/
theorem Statement.Written.front {st : Statement} {s : Bytes} (h : st.Written s) :
    ∃ b t, s = b :: t ∧ (b = 0x69 ∨ b = 0x72) := by
  cases h with
  | @guard test v hv => exact ⟨0x69, _, rfl, Or.inl rfl⟩
  | @returns e t he => exact ⟨0x72, _, rfl, Or.inr rfl⟩

theorem trim_indented_of_front (n : Nat) {s : Bytes} {b last : UInt8} {t : Bytes}
    (hfront : s = b :: t) (hb : b = 0x69 ∨ b = 0x72) (hs : IsPlain s)
    (hlast : s.getLast? = some last) (hblank : isBlank (Char.ofNat last.toNat) = false) :
    Bytes.trim (List.replicate n 0x20 ++ s) = s := by
  subst hfront
  refine Bytes.trim_indented n (fun d hd => (hs d hd).1) ?_ hlast hblank
  rcases hb with rfl | rfl <;> decide

section Running

variable {V : Type u} (ar : Arithmetic V) (env : Bytes → Option V)

theorem runLines_of_front {raw line : Bytes} (htrim : raw.trim = line) {b : UInt8} {t : Bytes}
    (hline : line = b :: t) (hb : b = 0x69 ∨ b = 0x72) (skipping : Bool) (rest : List Bytes) :
    runLines ar env skipping (raw :: rest) =
      if skipping then runLines ar env true rest
      else match Statement.read? line with
        | some (.guard test v) => do
          let x ← valueOf env v
          runLines ar env (!test.holds ar x) rest
        | some (.returns e) => e.eval ar env
        | none => .error (.unsupportedLine line) := by
  have hcomment : (bytes "//").isPrefixOf (b :: t) = false := by
    rw [show bytes "//" = [0x2F, 0x2F] from by decide]
    rcases hb with rfl | rfl <;> rfl
  have hbrace : b :: t ≠ bytes "\x7d" := by
    rw [show bytes "\x7d" = [0x7D] from by decide]
    rcases hb with rfl | rfl <;> simp
  rw [runLines, htrim, hline]
  simp only [List.isEmpty_cons, hcomment, Bool.or_false, Bool.false_eq_true, if_false, hbrace]

theorem valueOf_eq_ok {name : Bytes} {v : V} (h : env name = some v) :
    valueOf env name = .ok v := by
  rw [valueOf, h]

/-- A line with a guard decides whether the lines up to the next `}` are passed over. -/
theorem runLines_guard {raw v : Bytes} {test : Test} (hv : IsName v)
    (htrim : raw.trim = bytes "if (" ++ v ++ test.text ++ bytes ") \x7b") {x : V}
    (hx : env v = some x) (rest : List Bytes) :
    runLines ar env false (raw :: rest) = runLines ar env (!test.holds ar x) rest := by
  have hwritten := Statement.Written.guard test hv
  obtain ⟨b, t, hfront, hb⟩ := hwritten.front
  rw [runLines_of_front ar env htrim hfront hb, Statement.read?_eq_some_iff.mpr hwritten]
  simp only [valueOf_eq_ok env hx]
  rfl

theorem runLines_return {raw s : Bytes} {e : Expression} (he : e.Written s)
    (htrim : raw.trim = bytes "return " ++ s) (skipping : Bool) (rest : List Bytes) :
    runLines ar env skipping (raw :: rest) =
      if skipping then runLines ar env true rest else e.eval ar env := by
  have hwritten := Statement.Written.returns he
  obtain ⟨b, t, hfront, hb⟩ := hwritten.front
  rw [runLines_of_front ar env htrim hfront hb, Statement.read?_eq_some_iff.mpr hwritten]

theorem runLines_close {raw : Bytes} (htrim : raw.trim = bytes "\x7d") (skipping : Bool)
    (rest : List Bytes) : runLines ar env skipping (raw :: rest) = runLines ar env false rest := by
  rw [runLines, htrim]
  rfl

end Running

end AdaToC.C
