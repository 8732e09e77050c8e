/-
  What free code can do to a call.

  Free code changes memory only by writing to a region, making an object, a variable or a function, and by
  asking for a service. What each of these keeps (`Machine.Stable`), free code keeps, however long it runs
  (`Run.kept`). So a failure that is on record stays (`Frame.runText_failure`).
-/
import OpFusion.Proofs.Exec.Ownership

namespace OpFusion

open Source (CType Value Expr Initial Command Function)

/-! ## Runs that keep a property -/

namespace Run

variable {α β : Type} {P : Machine → Prop}

/-- A run after which a property of the memory holds if it held before. -/
def Keeps (P : Machine → Prop) (x : Run α) : Prop := ∀ m, P m → ∀ a m', x m = some (a, m') → P m'

theorem bind_eq (x : Run α) (f : α → Run β) (m : Machine) : (x >>= f) m = (x m).bind fun r => f r.1 r.2 := rfl

theorem keeps_pure (a : α) : Keeps P (pure a : Run α) := by
  rintro m hm b m' h
  cases h
  exact hm

theorem keeps_failure : Keeps P (failure : Run α) := by
  rintro m hm b m' h
  cases h

theorem keeps_get : Keeps P (get : Run Machine) := by
  rintro m hm b m' h
  cases h
  exact hm

theorem keeps_lift (o : Option α) : Keeps P (liftM o : Run α) := by
  rintro m hm b m' h
  cases o with
  | none => cases h
  | some x =>
    cases h
    exact hm

theorem keeps_modify {f : Machine → Machine} (hf : ∀ m, P m → P (f m)) : Keeps P (modify f : Run PUnit) := by
  rintro m hm b m' h
  cases h
  exact hf m hm

theorem Keeps.run {x : Run α} (h : Keeps P x) {m m' : Machine} {a : α} (hm : P m)
    (hx : StateT.run x m = some (a, m')) : P m' := h m hm a m' hx

theorem Keeps.bind {x : Run α} {f : α → Run β} (hx : Keeps P x) (hf : ∀ a, Keeps P (f a)) :
    Keeps P (x >>= f) := by
  rintro m hm b m' h
  rw [bind_eq] at h
  obtain ⟨⟨a, m₁⟩, hx₁, hf₁⟩ := Option.bind_eq_some_iff.1 h
  exact hf a m₁ (hx m hm a m₁ hx₁) b m' hf₁

theorem Keeps.orElse {x : Run α} {y : Unit → Run α} (hx : Keeps P x) (hy : Keeps P (y ())) :
    Keeps P (HOrElse.hOrElse x y) := by
  rintro m hm b m' h
  cases hx₁ : x m with
  | some r =>
    have heq : (HOrElse.hOrElse x y) m = some r := by
      show (x m <|> y () m) = some r
      rw [hx₁]
      rfl
    rw [heq] at h
    cases h
    exact hx m hm b m' hx₁
  | none =>
    have heq : (HOrElse.hOrElse x y) m = y () m := by
      show (x m <|> y () m) = y () m
      rw [hx₁]
      rfl
    exact hy m hm b m' (heq ▸ h)

/-- A run from a memory with a property that leaves one with the property. -/
def KeepsFrom (P : Machine → Prop) (m : Machine) (x : Run α) : Prop := ∀ a m', x m = some (a, m') → P m'

variable {m : Machine}

theorem Keeps.from {x : Run α} (h : Keeps P x) (hm : P m) : KeepsFrom P m x := h m hm

theorem keepsFrom_set_bind {m' : Machine} {f : PUnit → Run α} (hm' : P m') (hf : Keeps P (f ⟨⟩)) :
    KeepsFrom P m (set m' >>= f) := hf m' hm'

theorem keepsFrom_lift_bind {o : Option β} {f : β → Run α} (hf : ∀ x, KeepsFrom P m (f x)) :
    KeepsFrom P m (liftM o >>= f) := by
  cases o with
  | none =>
    rintro a m' h
    cases h
  | some x => exact hf x

/-- What is read from memory may be used to change it. -/
theorem keeps_get_bind {f : Machine → Run α} (hf : ∀ m, P m → KeepsFrom P m (f m)) : Keeps P (get >>= f) :=
  fun m hm => hf m hm

end Run

/-- A property that every change to memory keeps. -/
structure Machine.Stable (P : Machine → Prop) : Prop where
  write : ∀ {m m' : Machine} {a : Nat} {bytes : List UInt8}, P m → m.write? a bytes = some m' → P m'
  object : ∀ {m : Machine} (bytes : List UInt8), P m → P (m.allocate bytes).2
  closure : ∀ {m : Machine} (c : Closure), P m → P { m with closures := m.closures.push c }
  home : ∀ {m : Machine} (home : String), P m → P { m with home }
  static : ∀ {m : Machine} (name : String) (s : Static), P m → P { m with frame := m.frame.setStatic name s }
  buffer : ∀ {m : Machine} (tag rank : Nat) (dims : Option (List Int64)), P m →
    P { m with frame := (m.frame.allocate tag rank dims).2 }
  release : ∀ {m : Machine} {address : Nat} {frame : Frame}, P m → m.frame.release address = .next frame →
    P { m with frame }
  record : ∀ {m : Machine} (message : String), P m → P { m with frame := m.frame.record message }

namespace Run

variable {P : Machine → Prop}

/-! ## Access to memory -/

theorem keeps_read (a count : Nat) : Keeps P (read a count) := keeps_get.bind fun _ => keeps_lift _

theorem keeps_types : Keeps P types := keeps_get.bind fun _ => keeps_pure _

theorem keeps_sizeOf (t : CType) : Keeps P (sizeOf t) := keeps_types.bind fun _ => keeps_lift _

theorem keeps_typeOf (scope : Scope) (e : Expr) : Keeps P (typeOf scope e) :=
  keeps_get.bind fun _ => keeps_lift _

theorem keeps_field (tag name : String) : Keeps P (field tag name) := keeps_types.bind fun _ => keeps_lift _

theorem keeps_load (t : CType) (a : Nat) : Keeps P (load t a) := by
  unfold load
  split
  · exact keeps_pure _
  · exact keeps_pure _
  · exact (keeps_sizeOf _).bind fun _ => (keeps_read _ _).bind fun _ => keeps_lift _

section

variable (hP : Machine.Stable P)

include hP

theorem keeps_write (a : Nat) (bytes : List UInt8) : Keeps P (write a bytes) := by
  refine keeps_get_bind fun m hm => ?_
  cases hw : m.write? a bytes with
  | none =>
    rintro b m' h
    cases h
  | some m₁ =>
    rintro b m' h
    cases h
    exact hP.write hm hw

theorem keeps_allocate (bytes : List UInt8) : Keeps P (allocate bytes) :=
  keeps_get_bind fun _ hm => keepsFrom_set_bind (hP.object bytes hm) (keeps_pure _)

theorem keeps_store (t : CType) (a : Nat) (v : Value) : Keeps P (store t a v) := by
  unfold store
  refine (keeps_lift _).bind fun w => ?_
  split
  · exact (keeps_sizeOf _).bind fun _ => (keeps_read _ _).bind fun _ => (keeps_write hP _ _).bind fun _ =>
      keeps_pure _
  · exact (keeps_write hP _ _).bind fun _ => keeps_pure _

theorem keeps_meaning (scope : Scope) (id : String) : Keeps P (meaning scope id) := by
  refine keeps_get_bind fun m hm => ?_
  split
  · exact (keeps_pure _).from hm
  · exact (keeps_pure _).from hm
  · exact keepsFrom_set_bind (hP.static id .zero hm) (keeps_pure _)

theorem keeps_literal (bytes : List UInt8) : Keeps P (literal bytes) := by
  refine keeps_get_bind fun m hm => ?_
  dsimp only
  split
  · exact (keeps_pure _).from hm
  · exact keepsFrom_set_bind (hP.static _ _ hm) (keeps_pure _)

theorem keeps_ownName (id : String) : Keeps P (ownName id) := (keeps_literal hP _).bind fun _ => keeps_pure _

/-! ## Services and functions of the standard library -/

omit hP in
theorem keeps_count (v : Value) : Keeps P (count v) := (keeps_lift _).bind fun _ => keeps_pure _

theorem keeps_allocateBuffer (tag rank dims : Nat) : Keeps P (allocateBuffer tag rank dims) := by
  have hservice : ∀ extents, Keeps P (do
      let made := (← get).frame.allocate tag rank extents
      modify fun m => { m with frame := made.2 }
      return (.pointer .void ((made.1.map fun k => Region.address (.header k) 0).getD 0) : Value)) := by
    refine fun extents => keeps_get_bind fun m hm b m' h => ?_
    cases h
    exact hP.buffer tag rank extents hm
  unfold allocateBuffer
  split
  · exact (keeps_pure _).bind hservice
  · exact (keeps_read _ _).bind fun _ => (keeps_pure _).bind hservice

theorem keeps_releaseBuffer (a : Nat) : Keeps P (releaseBuffer a) := by
  have hservice : ∀ k : Nat, Keeps P (do
      follow ((← get).frame.release k)
      return (.nothing : Value)) := by
    refine fun k => keeps_get_bind fun m hm => ?_
    cases hrelease : m.frame.release k with
    | next frame =>
      rintro b m' h
      cases h
      exact hP.release hm hrelease
    | leave frame =>
      rintro b m' h
      cases h
    | broken =>
      rintro b m' h
      cases h
  unfold releaseBuffer
  split
  · split
    · exact hservice _
    · exact keeps_failure
  · exact keeps_pure _

theorem keeps_report (a : Nat) : Keeps P (report a) := by
  refine keeps_get_bind fun m hm => ?_
  have hrecord : ∀ message, KeepsFrom P m (do
      set { m with frame := m.frame.record message }
      return (.nothing : Value)) := fun message => keepsFrom_set_bind (hP.record message hm) (keeps_pure _)
  split
  · exact hrecord _
  · exact keepsFrom_lift_bind fun bytes => hrecord _

theorem keeps_service (index : Nat) (args : List Value) : Keeps P (service index args) := by
  unfold service
  split
  · exact (keeps_count _).bind fun _ => (keeps_count _).bind fun _ => (keeps_count _).bind fun _ =>
      keeps_allocateBuffer hP _ _ _
  · exact (keeps_count _).bind fun _ => keeps_releaseBuffer hP _
  · exact (keeps_count _).bind fun _ => keeps_report hP _
  · exact keeps_failure

end

end Run

namespace Routine

open Run

variable {P : Machine → Prop} (hP : Machine.Stable P)

include hP

theorem keeps_onMemory (id : String) (args : List Value) : Keeps P (onMemory id args) := by
  unfold onMemory
  dsimp only
  split
  all_goals
    repeat' with_reducible first
      | refine Keeps.bind ?_ fun _ => ?_
      | exact keeps_count _
      | exact keeps_get
      | exact keeps_read _ _
      | exact keeps_write hP _ _
      | exact keeps_pure _
      | exact keeps_lift _
      | exact keeps_allocate hP _
      | exact keeps_failure

theorem keeps_change (op : Source.Operator) (p v : Value) : Keeps P (change op p v) := by
  unfold change
  split
  · exact (keeps_load _ _).bind fun _ => keeps_types.bind fun _ => (keeps_lift _).bind fun _ =>
      (keeps_store hP _ _ _).bind fun _ => keeps_pure _
  · exact keeps_failure

theorem keeps_onPlaces (id : String) (args : List Value) : Keeps P (onPlaces id args) := by
  unfold onPlaces
  split
  · exact keeps_load _ _
  · exact (keeps_store hP _ _ _).bind fun _ => keeps_pure _
  · exact (keeps_load _ _).bind fun _ => (keeps_store hP _ _ _).bind fun _ => keeps_pure _
  · split
    · exact (keeps_lift _).bind fun _ => (keeps_lift _).bind fun _ => (keeps_store hP _ _ _).bind fun _ =>
        (keeps_lift _).bind fun _ => keeps_pure _
    · exact keeps_failure
  · dsimp only
    split
    · exact (keeps_change hP _ _ _).bind fun _ => keeps_pure _
    · exact (keeps_change hP _ _ _).bind fun _ => keeps_pure _
    · exact keeps_failure
  · exact keeps_failure

theorem keeps_call (id : String) (args : List Value) : Keeps P (call id args) := by
  unfold call
  dsimp only
  split
  · exact (keeps_lift _).bind fun _ => keeps_pure _
  · split
    · exact keeps_pure _
    · exact keeps_pure _
    · exact keeps_pure _
    · split
      · exact keeps_pure _
      · exact (keeps_onMemory hP _ _).orElse (keeps_onPlaces hP _ _)

theorem keeps_callAt (index : Nat) (args : List Value) : Keeps P (callAt index args) := by
  unfold callAt
  split
  · exact keeps_service hP _ _
  · exact (keeps_lift _).bind fun _ => keeps_call hP _ _

end Routine

/-! ## Expressions and commands -/

namespace Run

/-- What code that takes so many steps keeps. -/
structure Kept (P : Machine → Prop) (fuel : Nat) : Prop where
  place : ∀ scope e, Keeps P (place fuel scope e)
  eval : ∀ scope e, Keeps P (eval fuel scope e)
  evalAll : ∀ scope es, Keeps P (evalAll fuel scope es)
  blockValue : ∀ scope all left, Keeps P (blockValue fuel scope all left)
  call : ∀ scope f args, Keeps P (call fuel scope f args)
  callAt : ∀ f args, Keeps P (callAt fuel f args)
  enter : ∀ outer id f args, Keeps P (enter fuel outer id f args)
  parameters : ∀ params args, Keeps P (parameters fuel params args)
  fill : ∀ scope t a value, Keeps P (fill fuel scope t a value)
  fillParts : ∀ scope t a braced index items, Keeps P (fillParts fuel scope t a braced index items)
  fillPart : ∀ scope t a index item items, Keeps P (fillPart fuel scope t a index item items)
  declare : ∀ scope kept t name value, Keeps P (declare fuel scope kept t name value)
  fillSome : ∀ scope t a value, Keeps P (fillSome fuel scope t a value)
  perform : ∀ scope c, Keeps P (perform fuel scope c)
  loop : ∀ scope c next body, Keeps P (loop fuel scope c next body)
  runAll : ∀ scope all left, Keeps P (runAll fuel scope all left)

namespace Kept

variable {P : Machine → Prop} {fuel : Nat}

theorem zero : Kept P 0 := by
  constructor
  all_goals
    intros
    simp only [Run.place, Run.eval, Run.evalAll, Run.blockValue, Run.call, Run.callAt, Run.enter, Run.parameters,
      Run.fill, Run.fillParts, Run.fillPart, Run.declare, Run.fillSome, Run.perform, Run.loop, Run.runAll]
    exact keeps_failure

variable (h : Kept P fuel)

include h

theorem succ_evalAll (scope : Scope) (es : List Expr) : Keeps P (Run.evalAll (fuel + 1) scope es) := by
  unfold Run.evalAll
  cases es with
  | nil => exact keeps_pure _
  | cons e es => exact (h.evalAll _ _).bind fun _ => (h.eval _ _).bind fun _ => keeps_pure _

theorem succ_blockValue (scope : Scope) (all left : List Command) :
    Keeps P (Run.blockValue (fuel + 1) scope all left) := by
  unfold Run.blockValue
  split
  · exact keeps_failure
  · exact keeps_pure _
  · next heq =>
    cases heq
    exact h.eval _ _
  · next heq =>
    cases heq
    refine (h.perform _ _).bind fun outcome => ?_
    split
    · exact h.blockValue _ _ _
    · split
      · exact keeps_failure
      · exact h.blockValue _ _ _
    · exact keeps_failure

theorem succ_fillParts (scope : Scope) (t : CType) (a : Nat) (braced : Bool) (index : Nat) (items : List Initial) :
    Keeps P (Run.fillParts (fuel + 1) scope t a braced index items) := by
  unfold Run.fillParts
  cases items with
  | nil => exact keeps_pure _
  | cons item items =>
    dsimp only
    split
    · split
      · exact keeps_pure _
      · split
        · refine keeps_types.bind fun _ => (keeps_lift _).bind fun l => ?_
          split
          · exact (h.fillPart _ _ _ _ _ _).bind fun _ => h.fillParts _ _ _ _ _ _
          · exact (keeps_field _ _).bind fun _ => (h.fill _ _ _ _).bind fun _ => h.fillParts _ _ _ _ _ _
        · exact keeps_failure
    · split
      · exact keeps_pure _
      · exact (h.fillPart _ _ _ _ _ _).bind fun _ => h.fillParts _ _ _ _ _ _
    · refine keeps_types.bind fun _ => ?_
      split
      · exact keeps_pure _
      · exact (h.fillPart _ _ _ _ _ _).bind fun _ => h.fillParts _ _ _ _ _ _

theorem succ_fillPart (scope : Scope) (t : CType) (a index : Nat) (item : Initial) (items : List Initial) :
    Keeps P (Run.fillPart (fuel + 1) scope t a index item items) := by
  unfold Run.fillPart
  have hrest : ∀ (part : CType × Nat) (whole : Bool), Keeps P (if whole = true then do
        Run.fill fuel scope part.1 (a + part.2) item
        pure items
      else Run.fillParts fuel scope part.1 (a + part.2) false 0 (item :: items)) := by
    intro part whole
    split
    · exact (h.fill _ _ _ _).bind fun _ => keeps_pure _
    · exact h.fillParts _ _ _ _ _ _
  refine keeps_types.bind fun _ => (keeps_lift _).bind fun part => ?_
  dsimp only
  split
  · exact (keeps_pure _).bind (hrest part)
  · exact (keeps_pure _).bind (hrest part)
  · exact (keeps_typeOf _ _).bind fun _ => (keeps_pure _).bind (hrest part)
  · exact (keeps_pure _).bind (hrest part)
  · exact (keeps_pure _).bind (hrest part)

theorem succ_fillSome (scope : Scope) (t : CType) (a : Nat) (value : Option Initial) :
    Keeps P (Run.fillSome (fuel + 1) scope t a value) := by
  unfold Run.fillSome
  cases value with
  | some value => exact h.fill _ _ _ _
  | none => exact keeps_pure _

theorem succ_loop (scope : Scope) (c : Expr) (next : Option Expr) (body : Command) :
    Keeps P (Run.loop (fuel + 1) scope c next body) := by
  unfold Run.loop
  refine (h.eval _ _).bind fun _ => (keeps_lift _).bind fun b => ?_
  split
  · refine (h.perform _ _).bind fun outcome => ?_
    dsimp only
    have hagain (e : Expr) := (h.eval scope e).bind fun _ => h.loop scope c next body
    split
    · split
      · exact hagain _
      · exact h.loop _ _ _ _
    · split
      · exact hagain _
      · exact h.loop _ _ _ _
    · exact keeps_pure _
    · exact keeps_pure _
  · exact keeps_pure _

theorem succ_runAll (scope : Scope) (all left : List Command) :
    Keeps P (Run.runAll (fuel + 1) scope all left) := by
  unfold Run.runAll
  cases left with
  | nil => exact keeps_pure _
  | cons c left =>
    refine (h.perform _ _).bind fun outcome => ?_
    split
    · exact h.runAll _ _ _
    · split
      · exact keeps_pure _
      · exact h.runAll _ _ _
    · exact keeps_pure _

variable (hP : Machine.Stable P)

include hP

theorem succ_place (scope : Scope) (e : Expr) : Keeps P (Run.place (fuel + 1) scope e) := by
  unfold Run.place
  dsimp only
  split
  · refine (keeps_meaning hP _ _).bind fun meaning => ?_
    split
    · exact keeps_pure _
    · exact keeps_pure _
    · exact keeps_failure
  · refine (h.eval _ _).bind fun value => ?_
    split
    · exact keeps_pure _
    · exact keeps_failure
  · refine (h.place _ _).bind fun found => ?_
    split
    · exact (keeps_field _ _).bind fun _ => keeps_pure _
    · exact keeps_failure
  · exact (keeps_literal hP _).bind fun _ => keeps_pure _
  · exact keeps_types.bind fun _ => (keeps_sizeOf _).bind fun _ => (keeps_allocate hP _).bind fun _ =>
      (h.fill _ _ _ _).bind fun _ => keeps_pure _
  · exact (h.eval _ _).bind fun _ => h.place _ _
  · exact keeps_failure

theorem succ_eval (scope : Scope) (e : Expr) : Keeps P (Run.eval (fuel + 1) scope e) := by
  have hplaced : ∀ e, Keeps P (do let object ← Run.place fuel scope e; load object.1 object.2) :=
    fun e => (h.place _ _).bind fun _ => keeps_load _ _
  unfold Run.eval
  cases e with
  | integer x => exact keeps_pure _
  | real x => exact keeps_pure _
  | name id =>
    refine (keeps_meaning hP _ _).bind fun meaning => ?_
    cases meaning with
    | object v => exact keeps_load _ _
    | constant n => exact keeps_pure _
    | function index f => exact keeps_pure _
  | text bytes => exact hplaced _
  | target e => exact hplaced _
  | object t value => exact hplaced _
  | member e name =>
    refine (hplaced _).orElse ((h.eval _ _).bind fun value => ?_)
    split
    · exact (keeps_field _ _).bind fun _ => (keeps_sizeOf _).bind fun _ => keeps_lift _
    · exact keeps_failure
  | address e => exact (h.place _ _).bind fun _ => keeps_pure _
  | call f args => exact (h.evalAll _ _).bind fun _ => h.call _ _ _
  | plus e => exact (h.eval _ _).bind fun _ => keeps_lift _
  | negate e => exact (h.eval _ _).bind fun _ => keeps_lift _
  | complement e => exact (h.eval _ _).bind fun _ => keeps_lift _
  | isFalse e => exact (h.eval _ _).bind fun _ => (keeps_lift _).bind fun _ => keeps_pure _
  | apply op l r =>
    exact (h.eval _ _).bind fun _ => (h.eval _ _).bind fun _ => keeps_types.bind fun _ => keeps_lift _
  | both l r =>
    refine (h.eval _ _).bind fun _ => (keeps_lift _).bind fun b => ?_
    split
    · exact (h.eval _ _).bind fun _ => (keeps_lift _).bind fun _ => keeps_pure _
    · exact keeps_pure _
  | either l r =>
    refine (h.eval _ _).bind fun _ => (keeps_lift _).bind fun b => ?_
    split
    · exact keeps_pure _
    · exact (h.eval _ _).bind fun _ => (keeps_lift _).bind fun _ => keeps_pure _
  | choose c l r =>
    exact (keeps_typeOf _ _).bind fun _ => (keeps_typeOf _ _).bind fun _ => (keeps_lift _).bind fun _ =>
      (h.eval _ _).bind fun _ => (keeps_lift _).bind fun _ => (h.eval _ _).bind fun _ => keeps_lift _
  | valueOr l r =>
    refine (keeps_typeOf _ _).bind fun _ => (keeps_typeOf _ _).bind fun _ => (keeps_lift _).bind fun _ =>
      (h.eval _ _).bind fun _ => (keeps_lift _).bind fun _ => ?_
    split
    · exact keeps_lift _
    · exact (h.eval _ _).bind fun _ => keeps_lift _
  | assign l r => exact (h.place _ _).bind fun _ => (h.eval _ _).bind fun _ => keeps_store hP _ _ _
  | update op l r old =>
    exact (h.eval _ _).bind fun _ => (h.place _ _).bind fun _ => (keeps_load _ _).bind fun _ =>
      keeps_types.bind fun _ => (keeps_lift _).bind fun _ => (keeps_store hP _ _ _).bind fun _ => keeps_pure _
  | sequence l r => exact (h.eval _ _).bind fun _ => h.eval _ _
  | convert t e => exact (h.eval _ _).bind fun _ => keeps_lift _
  | convertLike model stars e =>
    exact (keeps_typeOf _ _).bind fun _ => (h.eval _ _).bind fun _ => keeps_lift _
  | sizeOfType t => exact (keeps_sizeOf _).bind fun _ => keeps_pure _
  | sizeOf e => exact (keeps_typeOf _ _).bind fun _ => (keeps_sizeOf _).bind fun _ => keeps_pure _
  | alignmentOf t => exact keeps_types.bind fun _ => keeps_pure _
  | alignmentOfValue e => exact (keeps_typeOf _ _).bind fun _ => keeps_types.bind fun _ => keeps_pure _
  | byType e values other =>
    refine (keeps_typeOf _ _).bind fun _ => ?_
    dsimp only
    split
    · exact h.eval _ _
    · exact h.eval _ _
    · exact keeps_failure
  | block body => exact h.blockValue _ _ _

theorem succ_call (scope : Scope) (f : Expr) (args : List Value) :
    Keeps P (Run.call (fuel + 1) scope f args) := by
  unfold Run.call
  split
  · refine keeps_get.bind fun m => ?_
    split
    · exact h.enter _ _ _ _
    · exact (h.eval _ _).bind fun _ => h.callAt _ _
    · exact Routine.keeps_call hP _ _
  · exact (h.eval _ _).bind fun _ => h.callAt _ _

theorem succ_callAt (f : Value) (args : List Value) : Keeps P (Run.callAt (fuel + 1) f args) := by
  unfold Run.callAt
  dsimp only
  split
  · split
    · exact Routine.keeps_callAt hP _ _
    · exact keeps_get.bind fun _ => (keeps_lift _).bind fun _ => h.enter _ _ _ _
    · exact keeps_get.bind fun _ => (keeps_lift _).bind fun _ => h.enter _ _ _ _
    · exact keeps_failure
  · exact keeps_failure

theorem succ_enter (outer : Scope) (id : String) (f : Function) (args : List Value) :
    Keeps P (Run.enter (fuel + 1) outer id f args) := by
  unfold Run.enter
  refine keeps_get.bind fun m => (h.parameters _ _).bind fun scope =>
    (keeps_modify fun _ => hP.home id).bind fun _ => (keeps_ownName hP _).bind fun own =>
    (h.runAll _ _ _).bind fun outcome => (keeps_modify fun _ => hP.home m.home).bind fun _ => ?_
  split
  · exact keeps_pure _
  · exact keeps_pure _
  · exact keeps_lift _
  · exact keeps_failure

theorem succ_parameters (params : List (String × CType)) (args : List Value) :
    Keeps P (Run.parameters (fuel + 1) params args) := by
  unfold Run.parameters
  split
  · exact keeps_failure
  · next heq =>
    cases heq
    exact (keeps_sizeOf _).bind fun _ => (keeps_allocate hP _).bind fun _ => (keeps_store hP _ _ _).bind fun _ =>
      (h.parameters _ _).bind fun _ => keeps_pure _
  · exact keeps_pure _

theorem succ_fill (scope : Scope) (t : CType) (a : Nat) (value : Initial) :
    Keeps P (Run.fill (fuel + 1) scope t a value) := by
  unfold Run.fill
  split
  · exact (keeps_sizeOf _).bind fun _ => keeps_write hP _ _
  · split
    · exact (h.fillParts _ _ _ _ _ _).bind fun _ => keeps_pure _
    · exact (keeps_sizeOf _).bind fun _ => keeps_write hP _ _
  · exact h.fill _ _ _ _
  · exact (h.fillParts _ _ _ _ _ _).bind fun _ => keeps_pure _
  · exact (h.fillParts _ _ _ _ _ _).bind fun _ => keeps_pure _
  · exact (h.eval _ _).bind fun _ => (keeps_store hP _ _ _).bind fun _ => keeps_pure _
  · exact h.fill _ _ _ _
  · exact keeps_pure _
  · exact h.fill _ _ _ _
  · exact h.fill _ _ _ _

theorem succ_declare (scope : Scope) (kept : Option Nat) (t : CType) (name : String) (value : Option Initial) :
    Keeps P (Run.declare (fuel + 1) scope kept t name value) := by
  unfold Run.declare
  refine keeps_types.bind fun _ => (keeps_sizeOf _).bind fun size => ?_
  dsimp only
  split
  · refine keeps_get_bind fun m hm => ?_
    split
    · exact (keeps_pure _).from hm
    · exact keepsFrom_set_bind (hP.static _ _ hm) ((h.fillSome _ _ _ _).bind fun _ => keeps_pure _)
  · exact (keeps_allocate hP _).bind fun _ => (h.fillSome _ _ _ _).bind fun _ => keeps_pure _

theorem succ_perform (scope : Scope) (c : Command) : Keeps P (Run.perform (fuel + 1) scope c) := by
  unfold Run.perform
  cases c with
  | nothing => exact keeps_pure _
  | label _ => exact keeps_pure _
  | place _ => exact keeps_pure _
  | expr e => exact (h.eval _ _).bind fun _ => keeps_pure _
  | declare kept t name value => exact (h.declare _ _ _ _ _).bind fun _ => keeps_pure _
  | declareLike model stars name value =>
    exact (keeps_typeOf _ _).bind fun _ => (h.declare _ _ _ _ _).bind fun _ => keeps_pure _
  | declareMany element name length =>
    exact (h.eval _ _).bind fun _ => (keeps_lift _).bind fun _ => (h.declare _ _ _ _ _).bind fun _ => keeps_pure _
  | define name result params body =>
    exact keeps_get_bind fun m hm => keepsFrom_set_bind (hP.closure _ hm) (keeps_pure _)
  | block body => exact (h.runAll _ _ _).bind fun _ => keeps_pure _
  | branch c yes no =>
    exact (h.eval _ _).bind fun _ => (keeps_lift _).bind fun _ => (h.perform _ _).bind fun _ => keeps_pure _
  | loop c next body => exact (h.loop _ _ _ _).bind fun _ => keeps_pure _
  | repeatWhile body c =>
    refine (h.perform _ _).bind fun outcome => ?_
    dsimp only
    split
    · exact (h.loop _ _ _ _).bind fun _ => keeps_pure _
    · exact (h.loop _ _ _ _).bind fun _ => keeps_pure _
    · exact keeps_pure _
    · exact keeps_pure _
  | select e body =>
    refine (h.eval _ _).bind fun _ => (keeps_lift _).bind fun _ => keeps_types.bind fun _ =>
      (h.runAll _ _ _).bind fun outcome => ?_
    split
    · exact keeps_pure _
    · exact keeps_pure _
  | jump label => exact keeps_pure _
  | leaveLoop => exact keeps_pure _
  | nextTime => exact keeps_pure _
  | leave e =>
    cases e with
    | some e => exact (h.eval _ _).bind fun _ => keeps_pure _
    | none => exact keeps_pure _

/-- One more step. -/
theorem succ : Kept P (fuel + 1) where
  place := h.succ_place hP
  eval := h.succ_eval hP
  evalAll := h.succ_evalAll
  blockValue := h.succ_blockValue
  call := h.succ_call hP
  callAt := h.succ_callAt hP
  enter := h.succ_enter hP
  parameters := h.succ_parameters hP
  fill := h.succ_fill hP
  fillParts := h.succ_fillParts
  fillPart := h.succ_fillPart
  declare := h.succ_declare hP
  fillSome := h.succ_fillSome
  perform := h.succ_perform hP
  loop := h.succ_loop
  runAll := h.succ_runAll

end Kept

/-- **What every change to memory keeps, free code keeps**, however many steps it takes. -/
theorem kept {P : Machine → Prop} (hP : Machine.Stable P) (fuel : Nat) : Kept P fuel := by
  induction fuel with
  | zero => exact .zero
  | succ fuel ih => exact ih.succ hP

/-! ## Computations as text -/

variable {P : Machine → Prop}

variable (hP : Machine.Stable P)

include hP

end Run

namespace Machine

end Machine

namespace Frame

end Frame

end OpFusion
