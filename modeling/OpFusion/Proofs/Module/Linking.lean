/-
  What a module asks of the compiler and the linker.

  Each application adds its requirements to those before it (`link_of_foldlM`), so that every list of a module
  is what its applications ask for, in the order of the first mention and without repetition
  (`Link.aggregated`).
-/
import OpFusion.Proofs.Module.Plain

namespace OpFusion

namespace Assembly

variable {g : Graph} {m : Module} {apps : List Application} {p p' : Progress}

/-- The requirements of applications, in order and with all repetitions. -/
def asked (apps : List Application) (field : Link.Field) : List String :=
  apps.flatMap (·.kind.link.get field)

theorem asked_cons (a : Application) (apps : List Application) (field : Link.Field) :
    asked (a :: apps) field = a.kind.link.get field ++ asked apps field := List.flatMap_cons

theorem link_of_foldlM (h : apps.foldlM (Progress.add g) p = .ok p') (field : Link.Field) :
    p'.link.get field = Link.union (p.link.get field) (asked apps field) := by
  induction apps generalizing p with
  | nil =>
    cases h
    rfl
  | cons a apps ih =>
    rw [List.foldlM_cons] at h
    obtain ⟨q, hadd, hrest⟩ := Outcome.bind_eq_ok.1 h
    obtain ⟨-, _, _, _, _, _, _, _, -, -, -, -, -, rfl⟩ := Progress.add_eq_ok hadd
    rw [ih hrest, Link.get_merge, asked_cons, Link.union_append]

/-- A module asks for what its applications ask for, once. -/
theorem get_link (h : assemble g = .ok m) (field : Link.Field) :
    m.link.get field = Link.union [] (asked g.applications field) := by
  obtain ⟨p, q, hp, -, rfl⟩ := assemble_eq_ok h
  have hlink := link_of_foldlM hp field
  rwa [Progress.start, Link.get_empty] at hlink

theorem mem_initCode (h : assemble g = .ok m) {code : String} :
    code ∈ m.link.initCode ↔ ∃ a ∈ g.applications, code ∈ a.kind.link.initCode := by
  have hlist : m.link.initCode = Link.union [] (asked g.applications .initCode) := get_link h .initCode
  rw [hlist, Link.mem_union, asked, List.mem_flatMap]
  simp [Link.get]

theorem hasInit_iff (h : assemble g = .ok m) :
    m.hasInit = true ↔ ∃ a ∈ g.applications, a.kind.link.initCode ≠ [] := by
  rw [hasInit_eq h, Bool.not_eq_true', List.isEmpty_eq_false_iff]
  constructor
  · intro hne
    obtain ⟨code, hcode⟩ := List.exists_mem_of_ne_nil _ hne
    obtain ⟨a, ha, hasked⟩ := (mem_initCode h).1 hcode
    exact ⟨a, ha, List.ne_nil_of_mem hasked⟩
  · rintro ⟨a, ha, hne⟩
    obtain ⟨code, hcode⟩ := List.exists_mem_of_ne_nil _ hne
    exact List.ne_nil_of_mem ((mem_initCode h).2 ⟨a, ha, hcode⟩)

end Assembly

/-- **Requirements are collected in order and without repetition.** To add requirements one after the other is to
add them together; to add the same ones again, or none, changes nothing; and whatever is there stays where it
is. So each list of a module is the first mentions in the lists of its applications, and a module is
initialised if some application has code for it. -/
theorem Link.aggregated :
    (∀ a b c : Link, (a.merge b).merge c = a.merge (b.merge c) ∧ a.merge a = a ∧ a.merge {} = a ∧
      ∀ field, a.get field <+: (a.merge b).get field) ∧
    ∀ g m, Assembly.assemble g = .ok m →
      (∀ field, (m.link.get field).Nodup ∧
        m.link.get field = (g.applications.flatMap (·.kind.link.get field)).eraseDups) ∧
      (m.hasInit = true ↔ ∃ a ∈ g.applications, a.kind.link.initCode ≠ []) := by
  refine ⟨fun a b c => ⟨merge_assoc a b c, merge_self a, merge_empty a, fun field => ?_⟩,
    fun g m h => ⟨fun field => ⟨?_, ?_⟩, Assembly.hasInit_iff h⟩⟩
  · rw [get_merge]
    exact prefix_union _ _
  · rw [Assembly.get_link h]
    exact nodup_union List.nodup_nil _
  · rw [Assembly.get_link h, union_nil_left]
    rfl

/-- A kind that asks for headers, some of them twice, and for code that runs first. -/
def Script.asking (name : String) (headers initCode : List String) : Script where
  name
  extents := some [[]]
  body := .steps []
  link := { headers, initCode }

theorem Script.plain_asking {name : String} {headers initCode : List String}
    (h : ∀ code ∈ initCode, Text.Plain code) : (asking name headers initCode).Plain where
  kindBlocks := by simp [asking]
  appBlocks := by simp [asking]
  extents := by simp [asking]
  body _ := Text.plain_ofList (by decide)
  initCode := h

/-- Three applications, of which the last two ask for headers again. -/
def Link.asking : Graph where
  name := "asking"
  vars := [⟨.i64, 0⟩, ⟨.i64, 0⟩, ⟨.i64, 0⟩]
  applications := [
    ⟨(Script.asking "one" ["b.h", "a.h", "b.h"] []).toKind, [], [0]⟩,
    ⟨(Script.asking "two" ["a.h", "c.h"] [""]).toKind, [], [1]⟩,
    ⟨(Script.asking "three" ["c.h", "b.h", "d.h"] []).toKind, [], [2]⟩]
  inputs := []
  outputs := [0, 1, 2]

theorem Link.aggregated_asking : ∃ m, Assembly.assemble Link.asking = .ok m ∧
    m.link.headers = ["b.h", "a.h", "c.h", "d.h"] ∧ m.link.libraries = [] ∧ m.hasInit = true := by
  have hkinds : ∀ a ∈ Link.asking.applications, a.kind.Plain := by
    simp only [Link.asking, List.forall_mem_cons, List.not_mem_nil, false_implies, implies_true, and_true]
    refine ⟨(Script.plain_asking (by simp)).toKind, (Script.plain_asking ?_).toKind,
      (Script.plain_asking (by simp)).toKind⟩
    exact List.forall_mem_singleton.2 (Text.plain_ofList (by decide))
  obtain ⟨m, hm⟩ := Assembly.assemble_of_plain hkinds (by decide +kernel)
  obtain ⟨hlists, hinit⟩ := aggregated.2 _ m hm
  refine ⟨m, hm, (hlists .headers).2.trans (by decide), (hlists .libraries).2.trans (by decide), hinit.2 ?_⟩
  exact ⟨_, List.mem_cons_of_mem _ (List.mem_cons_self ..), by decide⟩

end OpFusion
