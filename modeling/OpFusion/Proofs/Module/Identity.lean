/-
  The identity of a kind is its name, its parameters and its version.

  Kinds are honest if those of one identity give the same answers, as the library kinds do. Modules of
  honest kinds that have one manifest have one text (`Assembly.code_eq_of_manifest`).
-/
import OpFusion.Proofs.Module.Header
import OpFusion.Proofs.Module.Plain

namespace OpFusion

/-- Kinds that give the same answer to every question about every application. -/
structure OpKind.SameAnswers (a b : OpKind) : Prop extends a.SameFragments b where
  check : ∀ c, a.check c = b.check c
  link : a.link = b.link
  reentrant : a.reentrant = b.reentrant

/-- Kinds that give the same answers if their names, parameters and versions are the same. -/
def OpKind.Honest (kinds : OpKind → Prop) : Prop :=
  ∀ a b, kinds a → kinds b → a.name = b.name → a.params = b.params → a.version = b.version →
    a.SameAnswers b

/-- A graph has an application of a kind. -/
def Graph.Uses (g : Graph) (kind : OpKind) : Prop := ∃ a ∈ g.applications, a.kind = kind

/-! ## The library kinds -/

theorem BinaryOp.name_inj {op op' : BinaryOp} (h : op.name = op'.name) : op = op' := by
  cases op <;> cases op' <;> first | rfl | exact absurd h (by decide)

theorem UnaryOp.name_inj {op op' : UnaryOp} (h : op.name = op'.name) : op = op' := by
  cases op <;> cases op' <;> first | rfl | exact absurd h (by decide)

theorem Library.dtypeParam_inj {d d' : DType} (h : dtypeParam d = dtypeParam d') : d = d' :=
  DType.name_inj (String.append_right_inj _ |>.1 h)

/-- Parameters tell the name of an operation and its element type. -/
theorem Library.opParams_inj {name name' : String} {d d' : DType} (h : ',' ∉ name.toList)
    (h' : ',' ∉ name'.toList)
    (heq : "op=" ++ name ++ "," ++ dtypeParam d = "op=" ++ name' ++ "," ++ dtypeParam d') :
    name = name' ∧ d = d' := by
  replace heq := congrArg String.toList heq
  simp only [String.toList_append, List.append_assoc] at heq
  obtain ⟨hname, hdtype⟩ := Text.append_cons_inj_first h h' (List.append_cancel_left heq)
  exact ⟨String.toList_inj.1 hname, dtypeParam_inj (String.toList_inj.1 hdtype)⟩

/-- A library kind is told by its name and its parameters. -/
theorem Kernel.kind_inj {k k' : Kernel} (hname : k.kind.name = k'.kind.name)
    (hparams : k.kind.params = k'.kind.params) : k = k' := by
  cases k <;> cases k' <;>
    simp [kind, Library.scale, Library.reduceSum, Library.binary, Library.unary] at hname
  case scale.scale d d' => rw [Library.dtypeParam_inj hparams]
  case reduceSum.reduceSum d d' => rw [Library.dtypeParam_inj hparams]
  case binary.binary op d op' d' =>
    have hcomma : ∀ op : BinaryOp, ',' ∉ op.name.toList := by
      intro op
      cases op <;> decide
    obtain ⟨hop, rfl⟩ := Library.opParams_inj (hcomma op) (hcomma op') hparams
    rw [BinaryOp.name_inj hop]
  case unary.unary op d op' d' =>
    have hcomma : ∀ op : UnaryOp, ',' ∉ op.name.toList := by
      intro op
      cases op <;> decide
    obtain ⟨hop, rfl⟩ := Library.opParams_inj (hcomma op) (hcomma op') hparams
    rw [UnaryOp.name_inj hop]

theorem Kernel.honest : OpKind.Honest fun kind => ∃ k : Kernel, kind = k.kind := by
  rintro _ _ ⟨k, rfl⟩ ⟨k', rfl⟩ hname hparams -
  rw [Kernel.kind_inj hname hparams]
  exact ⟨⟨rfl, fun _ => rfl, fun _ _ => rfl, fun _ => rfl⟩, fun _ => rfl, rfl, rfl⟩

/-! ## One manifest, one text -/

namespace Assembly

/-- **Modules of honest kinds that have one manifest have one text**, and the library kinds are honest. -/
theorem code_eq_of_manifest :
    (∀ {g g' : Graph} {m m' : Module}, (OpKind.Honest fun kind => g.Uses kind ∨ g'.Uses kind) →
      assemble g = .ok m → assemble g' = .ok m' → m.Agrees m' →
      m.source = m'.source ∧ m.hasInit = m'.hasInit) ∧
    OpKind.Honest fun kind => ∃ k : Kernel, kind = k.kind := by
  refine ⟨?_, Kernel.honest⟩
  intro g g' m m' hhonest hm hm' h
  constructor
  · refine source_eq hm hm' h fun a ha a' ha' hname hparams hversion => ?_
    exact (hhonest _ _ (.inl ⟨a, ha, rfl⟩) (.inr ⟨a', ha', rfl⟩) hname hparams hversion).toSameFragments
  · rw [hasInit_eq hm, hasInit_eq hm', h.link]

open Script (tick)

variable {m : Module} {version : Option Version} {reentrant : Bool} {initCode : List String}
  {body body' : Body}

theorem sameAnswers_tick (h : ∀ c, body.text c = body'.text c) :
    (tick version reentrant initCode body).toKind.SameAnswers
      (tick version reentrant initCode body').toKind :=
  ⟨⟨rfl, fun _ => rfl, fun _ _ => rfl, fun c => congrArg Except.ok (h c)⟩, fun _ => rfl, rfl, rfl⟩

/-- The manifest of the module of such a kind, without a text. -/
def tickManifest (version : Option Version) (reentrant : Bool) (initCode : List String) : Module where
  source := ""
  parts := ⟨"", "", "", "", ""⟩
  link := Link.merge {} { initCode }
  inputs := []
  outputs := [⟨0, .i64, 0⟩]
  applications := [⟨Symbol.application 0 "tick", "tick", "", version, [], [⟨0, .i64, 0⟩]⟩]
  reentrant
  hasInit := false
  plans := []
  tempCount := 0

theorem agrees_tick (hm : assemble (tick version reentrant initCode body).alone = .ok m) :
    m.Agrees (tickManifest version reentrant initCode) := by
  obtain ⟨p, q, hp, -, rfl⟩ := assemble_eq_ok hm
  rw [Script.collect_tick] at hp
  cases hp
  exact ⟨rfl, rfl, rfl, rfl, rfl⟩

/-- Kinds that write no code, one as no statements and one as no text, have one module text with one
initialisation. -/
theorem code_eq_tick : ∃ m m',
    assemble (tick (some [1, 0]) true ["ticks = 0;"] (.steps [])).alone = .ok m ∧
    assemble (tick (some [1, 0]) true ["ticks = 0;"] (.code "")).alone = .ok m' ∧
    m.Agrees m' ∧ m.source = m'.source ∧ m.hasInit = m'.hasInit := by
  have hempty : Text.Plain "" := Text.plain_ofList (l := []) rfl
  have hinit : ∀ code ∈ ["ticks = 0;"], Text.Plain code :=
    List.forall_mem_singleton.2 (Text.plain_ofList (by decide))
  obtain ⟨m, hm⟩ : ∃ m, assemble (tick (some [1, 0]) true ["ticks = 0;"] (.steps [])).alone = .ok m :=
    Script.assemble_tick hinit fun _ => hempty
  obtain ⟨m', hm'⟩ : ∃ m, assemble (tick (some [1, 0]) true ["ticks = 0;"] (.code "")).alone = .ok m :=
    Script.assemble_tick hinit fun _ => hempty
  have hagrees : m.Agrees m' := (agrees_tick hm).trans (agrees_tick hm').symm
  refine ⟨m, m', hm, hm', hagrees, code_eq_of_manifest.1 ?_ hm hm' hagrees⟩
  have huses : ∀ {body kind}, (tick (some [1, 0]) true ["ticks = 0;"] body).alone.Uses kind →
      kind = (tick (some [1, 0]) true ["ticks = 0;"] body).toKind := by
    rintro body kind ⟨a, ha, rfl⟩
    cases List.mem_singleton.1 ha
    rfl
  rintro a b (ha | ha) (hb | hb) - - -
  · rw [huses ha, huses hb]
    exact sameAnswers_tick fun _ => rfl
  · rw [huses ha, huses hb]
    exact sameAnswers_tick fun _ => rfl
  · rw [huses ha, huses hb]
    exact sameAnswers_tick fun _ => rfl
  · rw [huses ha, huses hb]
    exact sameAnswers_tick fun _ => rfl

end Assembly

end OpFusion
