import AdaToC.Proofs.C.Prototype
import AdaToC.Proofs.C.Shape
import AdaToC.Proofs.C.Statement

/-!
# What the generated blocks compute

Every shape has a rule: what its block is to compute from the values of the first parameters. The
block is run as its text says, so its operands have to be names that the prototype declares.

The operands of a block are taken from the parameter list by position, and not from the Ada body by
name. For a body `return A - B` this makes a difference if `B` is declared before `A`.

A maximum or a minimum of two values of which neither is greater is the second one. This is seen
only if the two differ in something that comparisons do not see, as two zeros differ in their signs.
-/

namespace AdaToC.C

universe u

/-! ## Running the texts that blocks are made of -/

section Blocks

variable {V : Type u} (ar : Arithmetic V) (env : Bytes → Option V)

theorem run_returns {e : Expression} {text : Bytes} (he : e.Written (text ++ bytes ";"))
    (hne : e ≠ .nan) : run ar env (Shape.returns text) = e.eval ar env := by
  obtain ⟨hplain, hlast⟩ := he.plain hne
  have hline : Shape.returns text =
      List.replicate 4 0x20 ++ (bytes "return " ++ (text ++ bytes ";")) := by
    rw [Shape.returns, show bytes "    return " = List.replicate 4 0x20 ++ bytes "return " from by
      decide]
    simp only [List.append_assoc]
  have hstatement : IsPlain (bytes "return " ++ (text ++ bytes ";")) :=
    isPlain_append.mpr ⟨by decide, hplain⟩
  have hone : 0x0A ∉ List.replicate 4 0x20 ++ (bytes "return " ++ (text ++ bytes ";")) :=
    (isPlain_append.mpr ⟨by decide, hstatement⟩).newline_not_mem
  have hend : (bytes "return " ++ (text ++ bytes ";")).getLast? = some 0x3B := by
    rw [List.getLast?_append, hlast]
    rfl
  have htrim : Bytes.trim (List.replicate 4 0x20 ++ (bytes "return " ++ (text ++ bytes ";"))) = _ :=
    trim_indented_of_front 4 rfl (Or.inr rfl) hstatement hend (by decide)
  rw [run, hline, Bytes.split_of_not_mem hone, runLines_return ar env he htrim]
  rfl

theorem split_guarded {condition exception : Bytes} (hcondition : 0x0A ∉ condition)
    (hexception : 0x0A ∉ exception) (below : Bytes) :
    Bytes.split 0x0A (Shape.guarded condition exception below) =
      (bytes "    if (" ++ condition ++ bytes ") \x7b") ::
        (bytes "        return NAN;  // Ada would raise " ++ exception) ::
          bytes "    \x7d" :: Bytes.split 0x0A below := by
  have hlines : Shape.guarded condition exception below =
      (bytes "    if (" ++ condition ++ bytes ") \x7b") ++ 0x0A ::
        ((bytes "        return NAN;  // Ada would raise " ++ exception) ++ 0x0A ::
          (bytes "    \x7d" ++ 0x0A :: below)) := by
    rw [Shape.guarded, show bytes ") \x7b\n" = bytes ") \x7b" ++ [0x0A] from by decide,
      show bytes "\n" = [0x0A] from by decide,
      show bytes "    \x7d\n" = bytes "    \x7d" ++ [0x0A] from by decide]
    simp only [List.append_assoc, List.cons_append, List.nil_append]
  have hfirst : 0x0A ∉ bytes "    if (" ++ condition ++ bytes ") \x7b" := by
    simp only [List.mem_append, not_or]
    exact ⟨⟨by decide, hcondition⟩, by decide⟩
  have hsecond : 0x0A ∉ bytes "        return NAN;  // Ada would raise " ++ exception := by
    rw [List.mem_append, not_or]
    exact ⟨by decide, hexception⟩
  rw [hlines, Bytes.split_append_cons hfirst, Bytes.split_append_cons hsecond,
    Bytes.split_append_cons (by decide)]

theorem Test.isPlain_text (test : Test) : IsPlain test.text := by
  cases test <;> decide

theorem trim_guardLine {test : Test} {v : Bytes} (hv : IsName v) :
    Bytes.trim (bytes "    if (" ++ (v ++ test.text) ++ bytes ") \x7b") =
      bytes "if (" ++ v ++ test.text ++ bytes ") \x7b" := by
  have hplain : IsPlain (bytes "if (" ++ v ++ test.text ++ bytes ") \x7b") := by
    simp only [isPlain_append, hv.isPlain, test.isPlain_text, and_true]
    decide
  have hlast : (bytes "if (" ++ v ++ test.text ++ bytes ") \x7b").getLast? = some 0x7B := by
    rw [List.getLast?_append, show (bytes ") \x7b").getLast? = some 0x7B from by decide]
    rfl
  have hline : bytes "    if (" ++ (v ++ test.text) ++ bytes ") \x7b" =
      List.replicate 4 0x20 ++ (bytes "if (" ++ v ++ test.text ++ bytes ") \x7b") := by
    rw [show bytes "    if (" = List.replicate 4 0x20 ++ bytes "if (" from by decide]
    simp only [List.append_assoc]
  rw [hline]
  exact trim_indented_of_front 4 rfl (Or.inl rfl) hplain hlast (by decide)

/-- A guard in front of a block returns the value that is not a number where its test holds, and is
passed over elsewhere. -/
theorem run_guarded {test : Test} {v exception below : Bytes} (hv : IsName v) {x : V}
    (hx : env v = some x)
    (hexception : exception = bytes "Constraint_Error" ∨ exception = bytes "Argument_Error") :
    run ar env (Shape.guarded (v ++ test.text) exception below) =
      if test.holds ar x then .ok ar.nan else run ar env below := by
  have hcondition : 0x0A ∉ v ++ test.text :=
    (isPlain_append.mpr ⟨hv.isPlain, test.isPlain_text⟩).newline_not_mem
  have hnewline : 0x0A ∉ exception := by
    rcases hexception with rfl | rfl <;> decide
  -- what stands behind the value is a comment
  have hremark : isRemark (bytes "  // Ada would raise " ++ exception) = true := by
    rcases hexception with rfl | rfl <;> decide
  have htrim : Bytes.trim (bytes "        return NAN;  // Ada would raise " ++ exception) =
      bytes "return " ++ (bytes "NAN;" ++ (bytes "  // Ada would raise " ++ exception)) := by
    rcases hexception with rfl | rfl <;> decide +kernel
  rw [run, split_guarded hcondition hnewline, runLines_guard ar env hv (trim_guardLine hv) hx,
    runLines_return ar env (.nan hremark) htrim, runLines_close ar env (by decide +kernel)]
  cases test.holds ar x with
  | true => rfl
  | false => rfl

theorem run_placeholder : run ar env placeholder = .ok ar.zero := by
  have hlines : Bytes.split 0x0A placeholder =
      [bytes "    // TODO: Convert this Ada code to C", bytes "    return 0.0f;"] := by
    decide +kernel
  have hcomment : Bytes.trim (bytes "    // TODO: Convert this Ada code to C") =
      bytes "// TODO: Convert this Ada code to C" := by
    decide +kernel
  have hreturn : Bytes.trim (bytes "    return 0.0f;") = bytes "return " ++ bytes "0.0f;" := by
    decide +kernel
  rw [run, hlines, runLines, hcomment]
  exact runLines_return ar env .zero hreturn false []

end Blocks

/-! ## Operands -/

def Shape.operands (shape : Shape) (o : Operands) : List Bytes :=
  match shape with
  | .sqrt | .abs => [o.get 0 (bytes "x")]
  | .power => [o.get 0 (bytes "base"), o.get 1 (bytes "exponent")]
  | _ => [o.get 0 (bytes "a"), o.get 1 (bytes "b")]

/-- The number of parameters from which the block of a body computes. -/
def arity : Option Shape → Nat
  | none => 0
  | some .sqrt | some .abs => 1
  | some _ => 2

theorem IsName.lower {w : Bytes} (hw : IsName w) : IsName w.lower := by
  rw [Bytes.lower_of_ascii fun b hb => Ada.lt_of_isWordByte (hw.2 b hb)]
  refine ⟨by simpa using hw.1, ?_⟩
  intro b hb
  obtain ⟨d, hd, rfl⟩ := List.mem_map.mp hb
  have hword := Ada.isWordByte_iff.mp (hw.2 d hd)
  rw [Ada.isWordByte_iff, toNat_lowerByte]
  split <;> omega

theorem Operands.get_eq_of_isName {o : Operands} {i : Nat} {name : Bytes}
    (hi : o.names[i]? = some name) (hname : IsName name) (fallback : Bytes) :
    o.get i fallback = name := by
  have hempty : name.isEmpty = false := by simpa using hname.1
  rw [Operands.get, List.getD_eq_getElem?_getD, hi, Option.getD_some, Bytes.orElse, hempty]
  rfl

theorem Shape.operands_cases (shape : Shape) :
    (arity (some shape) = 1 ∧ ∃ f, ∀ o, shape.operands o = [o.get 0 f]) ∨
    (arity (some shape) = 2 ∧ ∃ f g, ∀ o, shape.operands o = [o.get 0 f, o.get 1 g]) := by
  cases shape with
  | sqrt | abs => exact Or.inl ⟨rfl, _, fun _ => rfl⟩
  | _ => exact Or.inr ⟨rfl, _, _, fun _ => rfl⟩

/-- Where the first parameters have names, these are the operands and nothing is filled in. -/
theorem Shape.operands_eq_take {shape : Shape} {o : Operands}
    (hlength : arity (some shape) ≤ o.names.length)
    (hnames : ∀ name ∈ o.names.take (arity (some shape)), IsName name) :
    shape.operands o = o.names.take (arity (some shape)) := by
  obtain ⟨names⟩ := o
  rcases shape.operands_cases with ⟨harity, f, hoperands⟩ | ⟨harity, f, g, hoperands⟩
  · rw [harity] at hlength hnames ⊢
    match names, hlength with
    | x :: names, _ =>
      rw [hoperands, Operands.get_eq_of_isName rfl (hnames x (by simp))]
      rfl
  · rw [harity] at hlength hnames ⊢
    match names, hlength with
    | x :: y :: names, _ =>
      rw [hoperands, Operands.get_eq_of_isName rfl (hnames x (by simp)),
        Operands.get_eq_of_isName rfl (hnames y (by simp))]
      rfl

/-! ## The rules -/

/-- What the rule of a shape says about the value of a block: `args` are the values of the
parameters. The larger and the smaller of two values are described by the order alone. -/
inductive Meets {V : Type u} (ar : Arithmetic V) : Option Shape → List V → V → Prop where
  | add (v w : V) (vs : List V) : Meets ar (some .add) (v :: w :: vs) (ar.add v w)
  | subtract (v w : V) (vs : List V) : Meets ar (some .subtract) (v :: w :: vs) (ar.sub v w)
  | multiply (v w : V) (vs : List V) : Meets ar (some .multiply) (v :: w :: vs) (ar.mul v w)
  | divideByZero (v : V) {w : V} (vs : List V) (hw : ar.eq w ar.zero = true) :
      Meets ar (some .divide) (v :: w :: vs) ar.nan
  | divide (v : V) {w : V} (vs : List V) (hw : ar.eq w ar.zero = false) :
      Meets ar (some .divide) (v :: w :: vs) (ar.div v w)
  | sqrtOfNegative {v : V} (vs : List V) (hv : ar.lt v ar.zero = true) :
      Meets ar (some .sqrt) (v :: vs) ar.nan
  | sqrt {v : V} (vs : List V) (hv : ar.lt v ar.zero = false) :
      Meets ar (some .sqrt) (v :: vs) (ar.sqrtf v)
  | power (v w : V) (vs : List V) : Meets ar (some .power) (v :: w :: vs) (ar.powf v w)
  | abs (v : V) (vs : List V) : Meets ar (some .abs) (v :: vs) (ar.fabsf v)
  | max {v w r : V} (vs : List V) (hr : r = v ∨ r = w) (hv : ar.lt r v = false)
      (hw : ar.lt r w = false) : Meets ar (some .max) (v :: w :: vs) r
  | min {v w r : V} (vs : List V) (hr : r = v ∨ r = w) (hv : ar.lt v r = false)
      (hw : ar.lt w r = false) : Meets ar (some .min) (v :: w :: vs) r
  | placeholder (vs : List V) : Meets ar none vs ar.zero

/-! ## Blocks meet their rules -/

def Operator.shape : Operator → Shape
  | .plus => .add
  | .minus => .subtract
  | .times => .multiply
  | .divided => .divide

def Order.shape : Order → Shape
  | .less => .min
  | .greater => .max

/-- The value of an operator on two values, where division by zero gives no number. -/
def Operator.checked {V : Type u} (ar : Arithmetic V) (op : Operator) (v w : V) : V :=
  if op = .divided ∧ ar.eq w ar.zero = true then ar.nan else op.apply ar v w

section Rules

variable {V : Type u} (ar : Arithmetic V) {env : Bytes → Option V}

theorem run_binary (op : Operator) {a b : Bytes} (ha : IsName a) (hb : IsName b) {v w : V}
    (hv : env a = some v) (hw : env b = some w) :
    run ar env (Shape.returns (a ++ spaced op.byte ++ b)) = .ok (op.apply ar v w) := by
  rw [run_returns ar env (.binary op ha hb) (by simp), Expression.eval, valueOf_eq_ok env hv,
    valueOf_eq_ok env hw]
  rfl

theorem run_power {a b : Bytes} (ha : IsName a) (hb : IsName b) {v w : V} (hv : env a = some v)
    (hw : env b = some w) :
    run ar env (Shape.returns (bytes "powf(" ++ a ++ bytes ", " ++ b ++ bytes ")")) =
      .ok (ar.powf v w) := by
  have hwritten := Expression.Written.power ha hb
  rw [show bytes ");" = bytes ")" ++ bytes ";" from by decide, ← List.append_assoc] at hwritten
  rw [run_returns ar env hwritten (by simp), Expression.eval, valueOf_eq_ok env hv,
    valueOf_eq_ok env hw]
  rfl

theorem run_abs {x : Bytes} (hx : IsName x) {v : V} (hv : env x = some v) :
    run ar env (Shape.returns (bytes "fabsf(" ++ x ++ bytes ")")) = .ok (ar.fabsf v) := by
  have hwritten := Expression.Written.abs hx
  rw [show bytes ");" = bytes ")" ++ bytes ";" from by decide, ← List.append_assoc] at hwritten
  rw [run_returns ar env hwritten (by simp), Expression.eval, valueOf_eq_ok env hv]
  rfl

theorem run_sqrt {x : Bytes} (hx : IsName x) {v : V} (hv : env x = some v) :
    run ar env (Shape.guarded (x ++ Test.isNegative.text) (bytes "Argument_Error")
        (Shape.returns (bytes "sqrtf(" ++ x ++ bytes ")"))) =
      .ok (if ar.lt v ar.zero then ar.nan else ar.sqrtf v) := by
  have hwritten := Expression.Written.sqrt hx
  rw [show bytes ");" = bytes ")" ++ bytes ";" from by decide, ← List.append_assoc] at hwritten
  rw [run_guarded ar env hx hv (Or.inr rfl), run_returns ar env hwritten (by simp),
    Expression.eval, valueOf_eq_ok env hv]
  cases hnegative : ar.lt v ar.zero with
  | true => simp [Test.holds, hnegative]
  | false => simp [Test.holds, hnegative, bind, Except.bind, pure, Except.pure]

theorem Operator.run_render (op : Operator) {o : Operands} (ha : IsName (o.get 0 (bytes "a")))
    (hb : IsName (o.get 1 (bytes "b"))) {v w : V} (hv : env (o.get 0 (bytes "a")) = some v)
    (hw : env (o.get 1 (bytes "b")) = some w) :
    run ar env (op.shape.render o) = .ok (op.checked ar v w) := by
  have hbinary := run_binary ar op ha hb hv hw
  cases op with
  | plus => exact hbinary
  | minus => exact hbinary
  | times => exact hbinary
  | divided =>
    -- the same `return` as for the other operators, behind a guard
    have hblock : Shape.divide.render o =
        Shape.guarded (o.get 1 (bytes "b") ++ Test.isZero.text) (bytes "Constraint_Error")
          (Shape.returns
            (o.get 0 (bytes "a") ++ spaced Operator.divided.byte ++ o.get 1 (bytes "b"))) := by
      rw [show spaced Operator.divided.byte = bytes " / " from by decide]
      rfl
    rw [Operator.shape, hblock, run_guarded ar env hb hw (Or.inl rfl), hbinary, Operator.checked]
    cases hzero : ar.eq w ar.zero with
    | true => simp [Test.holds, hzero]
    | false => simp [Test.holds, hzero]

theorem Operator.meets_checked (op : Operator) (v w : V) (rest : List V) :
    Meets ar (some op.shape) (v :: w :: rest) (op.checked ar v w) := by
  cases op with
  | plus => exact .add v w rest
  | minus => exact .subtract v w rest
  | times => exact .multiply v w rest
  | divided =>
    unfold Operator.checked
    split
    · next h => exact .divideByZero v rest h.2
    · next h => exact .divide v rest (by simpa using h)

theorem Order.run_render (order : Order) {o : Operands} (ha : IsName (o.get 0 (bytes "a")))
    (hb : IsName (o.get 1 (bytes "b"))) {v w : V} (hv : env (o.get 0 (bytes "a")) = some v)
    (hw : env (o.get 1 (bytes "b")) = some w) :
    run ar env (order.shape.render o) = .ok (if order.holds ar v w then v else w) := by
  have hblock : order.shape.render o = Shape.returns
      (Shape.choice (spaced order.byte) (o.get 0 (bytes "a")) (o.get 1 (bytes "b"))) := by
    cases order <;> rfl
  rw [hblock, Shape.choice, run_returns ar env (.choice order ha hb ha hb) (by simp),
    Expression.eval, valueOf_eq_ok env hv, valueOf_eq_ok env hw]
  rfl

theorem Order.meets_choice (order : Order) (v w : V) (rest : List V) :
    Meets ar (some order.shape) (v :: w :: rest) (if order.holds ar v w then v else w) := by
  -- the chosen operand is not beyond itself, and the other one was not beyond it
  cases order with
  | less =>
    show Meets ar (some .min) (v :: w :: rest) (if ar.lt v w then v else w)
    split
    · next h => exact .min rest (Or.inl rfl) (ar.lt_irrefl v) (ar.lt_asymm h)
    · next h => exact .min rest (Or.inr rfl) (by simpa using h) (ar.lt_irrefl w)
  | greater =>
    show Meets ar (some .max) (v :: w :: rest) (if ar.lt w v then v else w)
    split
    · next h => exact .max rest (Or.inl rfl) (ar.lt_irrefl v) (ar.lt_asymm h)
    · next h => exact .max rest (Or.inr rfl) (by simpa using h) (ar.lt_irrefl w)

theorem values_of_singleton {x : Bytes} {args : List V} (h : [x].map env = args.map some) :
    ∃ v, args = [v] ∧ env x = some v := by
  match args with
  | [v] => exact ⟨v, rfl, by simpa using h⟩
  | [] | _ :: _ :: _ => simp at h

theorem values_of_pair {x y : Bytes} {args : List V} (h : [x, y].map env = args.map some) :
    ∃ v w, args = [v, w] ∧ env x = some v ∧ env y = some w := by
  match args with
  | [v, w] =>
    simp only [List.map_cons, List.map_nil, List.cons.injEq, and_true] at h
    exact ⟨v, w, rfl, h.1, h.2⟩
  | [] | [_] | _ :: _ :: _ :: _ => simp at h

theorem Shape.run_of_single {shape : Shape} {o : Operands} {x : Bytes}
    (hoperands : shape.operands o = [x]) (hnames : ∀ name ∈ shape.operands o, IsName name)
    {args : List V} (hargs : (shape.operands o).map env = args.map some) (rest : List V)
    {value : V → V}
    (hrun : IsName x → ∀ v, env x = some v → run ar env (shape.render o) = .ok (value v))
    (hmeets : ∀ v, Meets ar (some shape) (v :: rest) (value v)) :
    ∃ r, run ar env (shape.render o) = .ok r ∧ Meets ar (some shape) (args ++ rest) r := by
  rw [hoperands] at hnames hargs
  obtain ⟨v, rfl, hv⟩ := values_of_singleton hargs
  exact ⟨value v, hrun (hnames x (by simp)) v hv, hmeets v⟩

theorem Shape.run_of_pair {shape : Shape} {o : Operands} {x y : Bytes}
    (hoperands : shape.operands o = [x, y]) (hnames : ∀ name ∈ shape.operands o, IsName name)
    {args : List V} (hargs : (shape.operands o).map env = args.map some) (rest : List V)
    {value : V → V → V}
    (hrun : IsName x → IsName y → ∀ v w, env x = some v → env y = some w →
      run ar env (shape.render o) = .ok (value v w))
    (hmeets : ∀ v w, Meets ar (some shape) (v :: w :: rest) (value v w)) :
    ∃ r, run ar env (shape.render o) = .ok r ∧ Meets ar (some shape) (args ++ rest) r := by
  rw [hoperands] at hnames hargs
  obtain ⟨v, w, rfl, hv, hw⟩ := values_of_pair hargs
  exact ⟨value v w, hrun (hnames x (by simp)) (hnames y (by simp)) v w hv hw, hmeets v w⟩

/-- The block of a shape runs to a value that meets the rule of the shape. -/
theorem Shape.run_render (shape : Shape) {o : Operands}
    (hnames : ∀ name ∈ shape.operands o, IsName name) {args : List V}
    (hargs : (shape.operands o).map env = args.map some) (rest : List V) :
    ∃ r, run ar env (shape.render o) = .ok r ∧ Meets ar (some shape) (args ++ rest) r := by
  -- four shapes are operators and two are choices; the other three stand for themselves
  have harithmetic : ∀ op : Operator, shape = op.shape →
      ∃ r, run ar env (shape.render o) = .ok r ∧ Meets ar (some shape) (args ++ rest) r := by
    rintro op rfl
    have hoperands : op.shape.operands o = [o.get 0 (bytes "a"), o.get 1 (bytes "b")] := by
      cases op <;> rfl
    exact run_of_pair ar hoperands hnames hargs rest
      (fun ha hb _ _ hv hw => op.run_render ar ha hb hv hw) fun v w => op.meets_checked ar v w rest
  have hchoice : ∀ order : Order, shape = order.shape →
      ∃ r, run ar env (shape.render o) = .ok r ∧ Meets ar (some shape) (args ++ rest) r := by
    rintro order rfl
    have hoperands : order.shape.operands o = [o.get 0 (bytes "a"), o.get 1 (bytes "b")] := by
      cases order <;> rfl
    exact run_of_pair ar hoperands hnames hargs rest
      (fun ha hb _ _ hv hw => order.run_render ar ha hb hv hw)
      fun v w => order.meets_choice ar v w rest
  cases shape with
  | add => exact harithmetic .plus rfl
  | subtract => exact harithmetic .minus rfl
  | multiply => exact harithmetic .times rfl
  | divide => exact harithmetic .divided rfl
  | max => exact hchoice .greater rfl
  | min => exact hchoice .less rfl
  | power =>
    exact run_of_pair ar rfl hnames hargs rest
      (fun ha hb _ _ hv hw => run_power ar ha hb hv hw) fun v w => .power v w rest
  | abs =>
    exact run_of_single ar rfl hnames hargs rest (fun hx _ hv => run_abs ar hx hv)
      fun v => .abs v rest
  | sqrt =>
    refine run_of_single ar rfl hnames hargs rest (fun hx _ hv => run_sqrt ar hx hv) ?_
    intro v
    split
    · next h => exact .sqrtOfNegative rest h
    · next h => exact .sqrt rest (by simpa using h)

end Rules

/-- Every block runs to a value and means what its rule says, if the parameters from which it
computes have names of C. Whatever values the declared names are bound to, no name is missing, no
line is misread, and the value that is returned meets the rule. -/
theorem block_meets_rule {V : Type u} (ar : Arithmetic V) (env : Bytes → Option V) (f : Function)
    (args : List V) (hcount : arity (Shape.ofBody? f.body) ≤ f.params.length)
    (hnames : ∀ p ∈ f.params.take (arity (Shape.ofBody? f.body)), IsName p.name)
    (hargs : f.prototype.params.map (fun q => env q.name) = args.map some) :
    f.declaration = f.prototype.text ∧
      ∃ r, run ar env f.block = .ok r ∧ Meets ar (Shape.ofBody? f.body) args r := by
  refine ⟨f.declaration_eq_text, ?_⟩
  -- operands are taken from the same lower-case names that the prototype declares
  have hvalues : (Operands.ofParameters f.params).names.map env = args.map some := by
    rw [← hargs]
    simp [Operands.ofParameters, Function.prototype]
  rw [Function.block, block]
  cases hshape : Shape.ofBody? f.body with
  | none => exact ⟨ar.zero, run_placeholder ar env, .placeholder args⟩
  | some shape =>
    rw [hshape] at hcount hnames
    have hlower : ∀ name ∈ (Operands.ofParameters f.params).names.take (arity (some shape)),
        IsName name := by
      intro name hname
      rw [Operands.ofParameters, ← List.map_take, List.mem_map] at hname
      obtain ⟨p, hp, rfl⟩ := hname
      exact (hnames p hp).lower
    have hoperands := Shape.operands_eq_take (by simpa [Operands.ofParameters] using hcount) hlower
    rw [← hoperands] at hlower
    have htake : (shape.operands (Operands.ofParameters f.params)).map env =
        (args.take (arity (some shape))).map some := by
      rw [hoperands, List.map_take, hvalues, List.map_take]
    -- the values of further parameters do not matter to the rule
    have hrun := shape.run_render ar hlower htake (args.drop (arity (some shape)))
    rwa [List.take_append_drop] at hrun

/-- Whole numbers, and `none` for what is not a number. -/
def Arithmetic.wholeNumbers : Arithmetic (Option Int) where
  zero := some 0
  nan := none
  add v w := do return (← v) + (← w)
  sub v w := do return (← v) - (← w)
  mul v w := do return (← v) * (← w)
  div v w := do if (← w) = 0 then none else return (← v) / (← w)
  sqrtf v := do return Int.ofNat (Nat.sqrt (← v).toNat)
  powf v w := do return Int.pow (← v) (← w).toNat
  fabsf v := do return Int.ofNat (← v).natAbs
  eq v w := v.isSome && v == w
  lt v w := v.any fun x => w.any fun y => x < y
  lt_irrefl v := by cases v <;> simp
  lt_trans {v w x} h h' := by
    match v, w, x with
    | some i, some j, some k =>
      simp only [Option.any_some, decide_eq_true_eq] at h h' ⊢
      omega
    | none, _, _ => simp at h
    | some _, none, _ => simp at h
    | some _, some _, none => simp at h'

/-- A division by zero, with a third parameter that could not be an operand. -/
theorem block_meets_rule_division_by_zero :
    let f : Function := ⟨bytes "Quotient",
      [⟨bytes "Num", bytes "Float"⟩, ⟨bytes "DEN", bytes "Float"⟩,
        ⟨bytes "not a name", bytes "Float"⟩], bytes "Float", bytes "begin return A / B; "⟩
    let env : Bytes → Option (Option Int) := fun name =>
      if name = bytes "num" then some (some 7)
      else if name = bytes "den" then some (some 0)
      else if name = bytes "not a name" then some none
      else none
    Shape.ofBody? f.body = some .divide ∧ run .wholeNumbers env f.block = .ok none := by
  intro f env
  have hshape : Shape.ofBody? f.body = some .divide := by decide +kernel
  obtain ⟨-, r, hrun, hmeets⟩ := block_meets_rule .wholeNumbers env f [some 7, some 0, none]
    (by decide +kernel) (by decide +kernel) (by decide +kernel)
  rw [hshape] at hmeets
  refine ⟨hshape, ?_⟩
  cases hmeets with
  | divideByZero => exact hrun
  | divide _ _ hden => exact absurd hden (by decide)

/-! ## Ties -/

/-- With `v` for the name `a` and `w` for the name `b`, a block returns `r`, whatever other names
are bound to. -/
def Returns {V : Type u} (ar : Arithmetic V) (block a b : Bytes) (v w r : V) : Prop :=
  ∀ env : Bytes → Option V, env a = some v → env b = some w → run ar env block = .ok r

/-- A block returns one value only, as two different names can be bound to any values. -/
theorem Returns.unique {V : Type u} {ar : Arithmetic V} {block a b : Bytes} {v w r r' : V}
    (hne : a ≠ b) (h : Returns ar block a b v w r) (h' : Returns ar block a b v w r') : r = r' := by
  let env : Bytes → Option V := fun name => if name = a then some v else some w
  have ha : env a = some v := if_pos rfl
  have hb : env b = some w := if_neg (Ne.symm hne)
  exact Except.ok.inj ((h env ha hb).symm.trans (h' env ha hb))

/-- The block of a maximum or a minimum returns the first operand if this is strictly beyond the
second one, and the second operand otherwise. -/
theorem Order.returns_block (order : Order) {V : Type u} (ar : Arithmetic V) {body : Bytes}
    (hbody : Shape.ofBody? body = some order.shape) {p q : Ada.Parameter} (hp : IsName p.name)
    (hq : IsName q.name) (rest : List Ada.Parameter) (v w : V) :
    Returns ar (block body (p :: q :: rest)) p.name.lower q.name.lower v w
      (if order.holds ar v w then v else w) := by
  intro env hv hw
  have ha : (Operands.ofParameters (p :: q :: rest)).get 0 (bytes "a") = p.name.lower :=
    Operands.get_eq_of_isName rfl hp.lower (bytes "a")
  have hb : (Operands.ofParameters (p :: q :: rest)).get 1 (bytes "b") = q.name.lower :=
    Operands.get_eq_of_isName rfl hq.lower (bytes "b")
  rw [block, hbody]
  apply order.run_render ar
  · rw [ha]; exact hp.lower
  · rw [hb]; exact hq.lower
  · rw [ha]; exact hv
  · rw [hb]; exact hw

theorem Order.holds_of_tie (order : Order) {V : Type u} {ar : Arithmetic V} {v w : V}
    (hvw : ar.lt v w = false) (hwv : ar.lt w v = false) : order.holds ar v w = false := by
  cases order with
  | less => exact hvw
  | greater => exact hwv

/-- Between two values of which neither is greater, the block of a maximum or a minimum returns the
value of the second parameter. So it returns that of the first parameter only if the two are the
same value. -/
theorem tie_goes_to_second {V : Type u} (ar : Arithmetic V) (body : Bytes) (p q : Ada.Parameter)
    (rest : List Ada.Parameter)
    (hbody : Shape.ofBody? body = some .max ∨ Shape.ofBody? body = some .min) (hp : IsName p.name)
    (hq : IsName q.name) (hne : p.name.lower ≠ q.name.lower) (v w : V) (hvw : ar.lt v w = false)
    (hwv : ar.lt w v = false) :
    let block := block body (p :: q :: rest)
    Returns ar block p.name.lower q.name.lower v w w ∧
      (Returns ar block p.name.lower q.name.lower v w v ↔ v = w) := by
  intro block
  obtain ⟨order, horder⟩ : ∃ order : Order, Shape.ofBody? body = some order.shape := by
    rcases hbody with hmax | hmin
    · exact ⟨.greater, hmax⟩
    · exact ⟨.less, hmin⟩
  have hsecond := order.returns_block ar horder hp hq rest v w
  rw [order.holds_of_tie hvw hwv, if_neg Bool.false_ne_true] at hsecond
  refine ⟨hsecond, fun hfirst => hfirst.unique hne hsecond, ?_⟩
  rintro rfl
  exact hsecond

/-- Values with a mark that comparisons do not see, as they do not see the sign of a zero. -/
def Arithmetic.marked {V : Type u} (ar : Arithmetic V) : Arithmetic (V × Bool) where
  zero := (ar.zero, false)
  nan := (ar.nan, false)
  add v w := (ar.add v.1 w.1, false)
  sub v w := (ar.sub v.1 w.1, false)
  mul v w := (ar.mul v.1 w.1, false)
  div v w := (ar.div v.1 w.1, false)
  sqrtf v := (ar.sqrtf v.1, false)
  powf v w := (ar.powf v.1 w.1, false)
  fabsf v := (ar.fabsf v.1, false)
  eq v w := ar.eq v.1 w.1
  lt v w := ar.lt v.1 w.1
  lt_irrefl v := ar.lt_irrefl v.1
  lt_trans h h' := ar.lt_trans h h'

/-- A minimum of two zeros, with a third parameter that could not be an operand. -/
theorem tie_goes_to_second_minimum :
    let body := bytes "begin return Float'Min (Lo, HI_2); "
    let params : List Ada.Parameter := [⟨bytes "Lo", bytes "Float"⟩, ⟨bytes "HI_2", bytes "Float"⟩,
      ⟨bytes "not a name", bytes "Float"⟩]
    let zero : Option Int × Bool := (some 0, false)
    let marked : Option Int × Bool := (some 0, true)
    Shape.ofBody? body = some .min ∧
      Returns (.marked .wholeNumbers) (block body params) (bytes "lo") (bytes "hi_2") zero marked
        marked ∧
      ¬ Returns (.marked .wholeNumbers) (block body params) (bytes "lo") (bytes "hi_2") zero marked
        zero := by
  intro body params zero marked
  have hbody : Shape.ofBody? body = some .min := by decide +kernel
  obtain ⟨hsecond, hfirst⟩ := tie_goes_to_second (.marked .wholeNumbers) body
    ⟨bytes "Lo", bytes "Float"⟩ ⟨bytes "HI_2", bytes "Float"⟩
    [⟨bytes "not a name", bytes "Float"⟩] (Or.inr hbody) (by decide) (by decide)
    (by decide +kernel) zero marked (by decide) (by decide)
  rw [show (bytes "Lo").lower = bytes "lo" from by decide +kernel,
    show (bytes "HI_2").lower = bytes "hi_2" from by decide +kernel] at hsecond hfirst
  exact ⟨hbody, hsecond, fun h => absurd (hfirst.mp h) (by decide)⟩

/-- Of two zeros that differ in a mark, neither the maximum nor the minimum is the first one. -/
theorem tied_zeros_not_first :
    let params : List Ada.Parameter := [⟨bytes "A", bytes "Float"⟩, ⟨bytes "B", bytes "Float"⟩]
    let maxBody := bytes "return Float'Max (A, B);"
    let minBody := bytes "return Float'Min (A, B);"
    let zero : Option Int × Bool := (some 0, false)
    let marked : Option Int × Bool := (some 0, true)
    let ar : Arithmetic (Option Int × Bool) := .marked .wholeNumbers
    ar.lt zero marked = false ∧ ar.lt marked zero = false ∧
      Shape.ofBody? maxBody = some .max ∧ Shape.ofBody? minBody = some .min ∧
      block maxBody params = bytes "    return a > b ? a : b;" ∧
      block minBody params = bytes "    return a < b ? a : b;" ∧
      ¬ Returns ar (block maxBody params) (bytes "a") (bytes "b") zero marked zero ∧
      ¬ Returns ar (block minBody params) (bytes "a") (bytes "b") zero marked zero := by
  intro params maxBody minBody zero marked ar
  let env : Bytes → Option (Option Int × Bool) := fun name =>
    if name = bytes "a" then some zero else some marked
  have hmaxShape : Shape.ofBody? maxBody = some .max := by decide +kernel
  have hminShape : Shape.ofBody? minBody = some .min := by decide +kernel
  have hmax : block maxBody params = bytes "    return a > b ? a : b;" := by
    rw [block, hmaxShape]
    decide +kernel
  have hmin : block minBody params = bytes "    return a < b ? a : b;" := by
    rw [block, hminShape]
    decide +kernel
  refine ⟨by decide, by decide, hmaxShape, hminShape, hmax, hmin, ?_, ?_⟩
  · intro h
    rw [hmax] at h
    exact absurd (h env (by decide) (by decide)) (by decide +kernel)
  · intro h
    rw [hmin] at h
    exact absurd (h env (by decide) (by decide)) (by decide +kernel)

/-! ## Arithmetic bodies -/

/-- White space of Unicode. -/
def IsWhite (g : Bytes) : Prop :=
  ∃ cs : List Char, cs.all isBlank ∧ g = Utf8.encodeAll cs

/-- A body `begin return A op B;` with any white space around its statement. -/
def ArithmeticBody (op : Operator) (body : Bytes) : Prop :=
  ∃ lead gap trail, IsWhite lead ∧ IsWhite gap ∧ IsWhite trail ∧
    body = lead ++ bytes "begin" ++ gap ++ bytes "return A" ++ spaced op.byte ++ bytes "B;" ++ trail

/-- Whatever values the names `p` and `q` are bound to, the block gives that of `op` on them. -/
def Computes (op : Operator) (block p q : Bytes) : Prop :=
  ∀ (V : Type u) (ar : Arithmetic V) (env : Bytes → Option V) (v w : V),
    env p = some v → env q = some w → run ar env block = .ok (op.checked ar v w)

/-- The last line of a block, without its indentation. -/
def lastStatement (block : Bytes) : Bytes :=
  ((Bytes.split 0x0A block).getLastD []).dropWhile (· == 0x20)

theorem Operator.byte_injective {op op' : Operator} (h : op.byte = op'.byte) : op = op' := by
  have hread := op.ofByte?_byte
  rw [h, op'.ofByte?_byte] at hread
  exact (Option.some.inj hread).symm

theorem IsWhite.not_mem_operator {g : Bytes} (hg : IsWhite g) (op : Operator) : op.byte ∉ g := by
  obtain ⟨cs, hcs, rfl⟩ := hg
  intro hmem
  obtain ⟨c, hc, hbyte⟩ := List.mem_flatMap.mp hmem
  -- a byte of ASCII is a whole character, and an operator is no blank
  have hblank := List.all_eq_true.mp hcs c hc
  have hascii : op.byte < 0x80 := by cases op <;> decide
  rw [Utf8.eq_ofNat_of_mem_encode hascii hbyte] at hblank
  have hother : isBlank (Char.ofNat op.byte.toNat) = false := by cases op <;> decide
  rw [hother] at hblank
  cases hblank

/-- Only its own operator stands in such a body. -/
theorem ArithmeticBody.operator_eq {op : Operator} {body : Bytes} (h : ArithmeticBody op body)
    {other : Operator} (hmem : other.byte ∈ body) : other = op := by
  obtain ⟨lead, gap, trail, hlead, hgap, htrail, rfl⟩ := h
  have hbegin : other.byte ∉ bytes "begin" := by cases other <;> decide
  have hreturn : other.byte ∉ bytes "return A" := by cases other <;> decide
  have hoperand : other.byte ∉ bytes "B;" := by cases other <;> decide
  have hblank : other.byte ≠ 0x20 := by cases other <;> decide
  rw [spaced] at hmem
  simp only [List.mem_append, List.mem_cons, List.not_mem_nil, or_false, hbegin, hreturn, hoperand,
    hblank, hlead.not_mem_operator, hgap.not_mem_operator, htrail.not_mem_operator,
    false_or] at hmem
  exact Operator.byte_injective hmem

theorem ArithmeticBody.marker_occursIn {op : Operator} {body : Bytes} (h : ArithmeticBody op body) :
    op.shape.marker.occursIn body = true := by
  obtain ⟨lead, gap, trail, -, -, -, rfl⟩ := h
  have hcut : lead ++ bytes "begin" ++ gap ++ bytes "return A" ++ spaced op.byte ++ bytes "B;" ++
      trail = (lead ++ bytes "begin" ++ gap) ++ op.shape.marker ++ (bytes ";" ++ trail) := by
    have hmarker : op.shape.marker = bytes "return A" ++ spaced op.byte ++ bytes "B" := by
      cases op <;> decide
    rw [hmarker, show bytes "B;" = bytes "B" ++ bytes ";" from by decide]
    simp only [List.append_assoc]
  rw [hcut]
  exact Bytes.occursIn_append _ _ _

theorem Operator.of_mem_before {op : Operator} {shape : Shape} (h : shape ∈ op.shape.before) :
    ∃ other : Operator, other ≠ op ∧ shape = other.shape := by
  have hbefore : op.shape.before ⊆ [Operator.plus, .minus, .times].map Operator.shape := by
    cases op <;> decide
  obtain ⟨other, -, rfl⟩ := List.mem_map.mp (hbefore h)
  refine ⟨other, ?_, rfl⟩
  rintro rfl
  exact absurd h (by cases other <;> decide)

theorem ArithmeticBody.ofBody?_eq {op : Operator} {body : Bytes} (h : ArithmeticBody op body) :
    Shape.ofBody? body = some op.shape := by
  have hothers : ∀ other : Operator, other ≠ op → other.shape.marker.occursIn body = false := by
    intro other hne
    rw [← Bool.not_eq_true]
    intro hoccurs
    have hmem : other.byte ∈ other.shape.marker := by cases other <;> decide
    exact hne (h.operator_eq (Bytes.mem_of_occursIn hoccurs hmem))
  -- the shapes that are tried before have another operator in their markers
  refine Shape.ofBody?_eq_some h.marker_occursIn ?_
  intro shape hshape
  obtain ⟨other, hne, rfl⟩ := op.of_mem_before hshape
  exact hothers other hne

theorem lastStatement_returns {text : Bytes} (h : 0x0A ∉ text) :
    lastStatement (Shape.returns text) = bytes "return " ++ text ++ bytes ";" := by
  have hone : 0x0A ∉ Shape.returns text := by
    rw [Shape.returns]
    simp only [List.mem_append, not_or]
    exact ⟨⟨by decide, h⟩, by decide⟩
  rw [lastStatement, Bytes.split_of_not_mem hone, Shape.returns,
    show bytes "    return " = List.replicate 4 0x20 ++ bytes "return " from by decide]
  rfl

theorem lastStatement_guarded {condition exception : Bytes} (hcondition : 0x0A ∉ condition)
    (hexception : 0x0A ∉ exception) (below : Bytes) :
    lastStatement (Shape.guarded condition exception below) = lastStatement below := by
  obtain ⟨line, lines, hbelow⟩ := List.exists_cons_of_ne_nil (Bytes.split_ne_nil 0x0A below)
  rw [lastStatement, lastStatement, split_guarded hcondition hexception, hbelow]
  rfl

theorem Operator.lastStatement_render (op : Operator) {o : Operands}
    (ha : 0x0A ∉ o.get 0 (bytes "a")) (hb : 0x0A ∉ o.get 1 (bytes "b")) :
    lastStatement (op.shape.render o) =
      bytes "return " ++ (o.get 0 (bytes "a") ++ spaced op.byte ++ o.get 1 (bytes "b")) ++
        bytes ";" := by
  have hspaced : 0x0A ∉ spaced op.byte := by cases op <;> decide
  have htext : 0x0A ∉ o.get 0 (bytes "a") ++ spaced op.byte ++ o.get 1 (bytes "b") := by
    simp only [List.mem_append, not_or]
    exact ⟨⟨ha, hspaced⟩, hb⟩
  have hreturns := lastStatement_returns htext
  cases op with
  | plus => exact hreturns
  | minus => exact hreturns
  | times => exact hreturns
  | divided =>
    have hcondition : 0x0A ∉ o.get 1 (bytes "b") ++ bytes " == 0.0f" := by
      rw [List.mem_append, not_or]
      exact ⟨hb, by decide⟩
    rw [← hreturns]
    exact lastStatement_guarded hcondition (by decide) _

theorem Operands.get_ne_nil (o : Operands) (i : Nat) {fallback : Bytes} (h : fallback ≠ []) :
    o.get i fallback ≠ [] :=
  Bytes.orElse_ne_nil h

theorem returned_operands_iff (op : Operator) {p q : Bytes} (hp : p ≠ []) (hq : q ≠ []) :
    bytes "return " ++ (p ++ spaced op.byte ++ q) ++ bytes ";" =
        bytes "return a" ++ spaced op.byte ++ bytes "b;" ↔
      p = bytes "a" ∧ q = bytes "b" := by
  have hfixed : bytes "return a" ++ spaced op.byte ++ bytes "b;" =
      bytes "return " ++ ([0x61] ++ spaced op.byte ++ [0x62]) ++ bytes ";" := by
    cases op <;> decide
  rw [hfixed, List.append_left_inj, List.append_right_inj,
    show bytes "a" = [0x61] from by decide, show bytes "b" = [0x62] from by decide]
  constructor
  · intro h
    have hlength := congrArg List.length h
    have hp' := List.length_pos_iff.mpr hp
    have hq' := List.length_pos_iff.mpr hq
    simp only [List.length_append, List.length_singleton] at hlength
    -- each operand has one byte, so the operators stand at the same place
    obtain ⟨x, rfl⟩ := List.length_eq_one_iff.mp (show p.length = 1 by omega)
    obtain ⟨y, rfl⟩ := List.length_eq_one_iff.mp (show q.length = 1 by omega)
    simpa [spaced] using h
  · rintro ⟨rfl, rfl⟩
    rfl

theorem Operands.get_of_declared {params rest : List Ada.Parameter} {s t : Bytes}
    (h : params = ⟨bytes "A", s⟩ :: ⟨bytes "B", t⟩ :: rest) (fallback fallback' : Bytes) :
    (Operands.ofParameters params).get 0 fallback = bytes "a" ∧
      (Operands.ofParameters params).get 1 fallback' = bytes "b" := by
  have ha : (bytes "A").lower = bytes "a" := by decide +kernel
  have hb : (bytes "B").lower = bytes "b" := by decide +kernel
  rw [h]
  exact ⟨Operands.get_eq_of_isName (congrArg some ha) (by decide) fallback,
    Operands.get_eq_of_isName (congrArg some hb) (by decide) fallback'⟩

/-- The block of a body `begin return A op B;` takes the first two parameters in the order of their
declaration. So it computes with the values of `A` and `B` if these are declared first and in this
order, and its last statement says so; in general it is `return p op q;` for the two names in lower
case, where `a` and `b` fill in for names that are empty. -/
theorem arithmetic_block_in_declared_order (op : Operator) (f : Function)
    (hbody : ArithmeticBody op f.body) :
    let p := (Operands.ofParameters f.params).get 0 (bytes "a")
    let q := (Operands.ofParameters f.params).get 1 (bytes "b")
    (∀ s t rest, f.params = ⟨bytes "A", s⟩ :: ⟨bytes "B", t⟩ :: rest →
      Computes.{u} op f.block (bytes "a") (bytes "b") ∧
        lastStatement f.block = bytes "return a" ++ spaced op.byte ++ bytes "b;") ∧
    (IsName p → IsName q → Computes.{u} op f.block p q) ∧
    (0x0A ∉ p → 0x0A ∉ q →
      lastStatement f.block = bytes "return " ++ (p ++ spaced op.byte ++ q) ++ bytes ";" ∧
        (lastStatement f.block = bytes "return a" ++ spaced op.byte ++ bytes "b;" ↔
          p = bytes "a" ∧ q = bytes "b")) := by
  intro p q
  have hblock : f.block = op.shape.render (Operands.ofParameters f.params) := by
    rw [Function.block, block, hbody.ofBody?_eq]
  have hcomputes : IsName p → IsName q → Computes op f.block p q := by
    intro hp hq V ar env v w hv hw
    rw [hblock]
    exact op.run_render ar hp hq hv hw
  have hlast : 0x0A ∉ p → 0x0A ∉ q →
      lastStatement f.block = bytes "return " ++ (p ++ spaced op.byte ++ q) ++ bytes ";" := by
    intro hp hq
    rw [hblock]
    exact op.lastStatement_render hp hq
  have hiff := returned_operands_iff op
    ((Operands.ofParameters f.params).get_ne_nil 0 (by decide : bytes "a" ≠ []))
    ((Operands.ofParameters f.params).get_ne_nil 1 (by decide : bytes "b" ≠ []))
  refine ⟨?_, hcomputes, fun hp hq => ⟨hlast hp hq, by rw [hlast hp hq]; exact hiff⟩⟩
  intro s t rest hparams
  obtain ⟨hp, hq⟩ : p = bytes "a" ∧ q = bytes "b" :=
    Operands.get_of_declared hparams (bytes "a") (bytes "b")
  rw [hp, hq] at hcomputes hlast
  refine ⟨hcomputes (by decide) (by decide), ?_⟩
  rw [hlast (by decide) (by decide)]
  cases op <;> decide

/-- A body with a line feed and a wide blank around its statement, and a third parameter. -/
theorem arithmetic_block_in_declared_order_quotient :
    let f : Function := ⟨bytes "Quotient", Ada.Parameter.parse (bytes "A, B : Float; C : Float"),
      bytes "Float", bytes "begin\n  return A / B;\u3000"⟩
    ArithmeticBody .divided f.body ∧ Computes.{0} .divided f.block (bytes "a") (bytes "b") ∧
      lastStatement f.block = bytes "return a / b;" := by
  intro f
  have hbody : ArithmeticBody .divided f.body :=
    ⟨[], bytes "\n  ", bytes "\u3000", ⟨[], by decide, by decide⟩,
      ⟨['\n', ' ', ' '], by decide, by decide⟩, ⟨['\u3000'], by decide, by decide⟩, by decide⟩
  have hdeclared := (arithmetic_block_in_declared_order .divided f hbody).1 (bytes "Float")
    (bytes "Float") [⟨bytes "C", bytes "Float"⟩] (by decide +kernel)
  exact ⟨hbody, hdeclared.1, hdeclared.2.trans (by decide)⟩

/-- With `B` declared before `A`, a subtraction is carried out the other way round. -/
theorem subtraction_swapped_by_declaration :
    let source := bytes "function Sub (B, A : Float) return Float is begin return A - B; end Sub;"
    let f : Function := ⟨bytes "Sub", [⟨bytes "B", bytes "Float"⟩, ⟨bytes "A", bytes "Float"⟩],
      bytes "Float", bytes "begin return A - B; "⟩
    functionsOf source = [f] ∧ ArithmeticBody .minus f.body ∧
      lastStatement f.block = bytes "return b - a;" ∧
      lastStatement f.block ≠ bytes "return a - b;" ∧
      ¬ Computes.{0} .minus f.block (bytes "a") (bytes "b") := by
  intro source f
  have hbody : ArithmeticBody .minus f.body :=
    ⟨[], bytes " ", bytes " ", ⟨[], by decide, by decide⟩, ⟨[' '], by decide, by decide⟩,
      ⟨[' '], by decide, by decide⟩, by decide⟩
  refine ⟨by decide +kernel, hbody, by decide +kernel, by decide +kernel, ?_⟩
  intro hcomputes
  have hvalue := hcomputes (Option Int) .wholeNumbers
    (fun name => if name = bytes "a" then some (some 5) else some (some 3)) (some 5) (some 3)
    (by decide) (by decide)
  exact absurd hvalue (by decide +kernel)

end AdaToC.C
