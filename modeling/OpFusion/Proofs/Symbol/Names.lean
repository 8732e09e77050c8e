/-
  Names of applications and of their symbols are identifiers that tell positions apart.

  `sanitize` makes identifiers, and leaves identifiers as they are (`sanitizeChars_eq_self`). Whatever
  belongs to an application begins with a letter, the digits of its position and an underscore
  (`Names.numbered`), so that it is none of the symbols of the prelude and belongs to no other position
  (`names_apart`).
-/
import OpFusion.Proofs.Module.Plans
import OpFusion.Proofs.Symbol

namespace OpFusion

namespace Symbol

variable {c : Char} {cs : List Char} {s : String}

/-! ## Identifiers -/

/-- An identifier: letters, digits and underscores, of which the first is no digit. -/
def IsIdentifier (s : String) : Prop :=
  ∃ c cs, s.toList = c :: cs ∧ (c.isAlpha = true ∨ c = '_') ∧ ∀ d ∈ cs, d.isAlphanum = true ∨ d = '_'

theorem isPart_iff : isPart c = true ↔ c.isAlphanum = true ∨ c = '_' := by simp [isPart]

/-- An identifier is characters of identifiers, of which the first is no digit. -/
theorem isIdentifier_of_isPart (hs : s.toList = c :: cs) (hparts : ∀ d ∈ s.toList, isPart d = true)
    (hdigit : c.isDigit = false) : IsIdentifier s := by
  rw [hs, List.forall_mem_cons] at hparts
  refine ⟨c, cs, hs, ?_, fun d hd => isPart_iff.1 (hparts.2 d hd)⟩
  exact (isPart_iff.1 hparts.1).imp_left fun halnum => by simpa [Char.isAlphanum, hdigit] using halnum

theorem part_of_isPart (h : isPart c = true) : part c = c := if_pos h

theorem isDigit_part (h : c.isDigit = false) : (part c).isDigit = false := by
  unfold part
  split
  · exact h
  · decide

/-- The identifier of a text begins with no digit. -/
theorem exists_sanitizeChars_eq (cs : List Char) :
    ∃ c rest, sanitizeChars cs = c :: rest ∧ c.isDigit = false := by
  cases cs with
  | nil => exact ⟨'o', ['p'], rfl, by decide⟩
  | cons c cs =>
    rw [sanitizeChars]
    split
    · exact ⟨'_', _, rfl, by decide⟩
    · next hdigit => exact ⟨part c, _, rfl, isDigit_part (by simpa using hdigit)⟩

theorem isIdentifier_sanitize (s : String) : IsIdentifier (sanitize s) := by
  obtain ⟨c, rest, hchars, hdigit⟩ := exists_sanitizeChars_eq s.toList
  have hlist : (sanitize s).toList = sanitizeChars s.toList := String.toList_ofList
  refine isIdentifier_of_isPart (hlist.trans hchars) (fun d hd => ?_) hdigit
  rw [hlist] at hd
  exact isPart_of_mem_sanitizeChars hd

/-- An identifier stays as it is. -/
theorem sanitizeChars_eq_self (hparts : ∀ d ∈ c :: cs, isPart d = true) (hdigit : c.isDigit = false) :
    sanitizeChars (c :: cs) = c :: cs := by
  have hmap : (c :: cs).map part = c :: cs := by
    rw [List.map_congr_left fun d hd => part_of_isPart (hparts d hd), List.map_id']
  rw [sanitizeChars, hmap, hdigit]
  rfl

theorem sanitize_sanitize (s : String) : sanitize (sanitize s) = sanitize s := by
  obtain ⟨c, rest, hchars, hdigit⟩ := exists_sanitizeChars_eq s.toList
  have hparts : ∀ d ∈ c :: rest, isPart d = true := fun d hd => isPart_of_mem_sanitizeChars (hchars ▸ hd)
  rw [sanitize, sanitize, String.toList_ofList, hchars, sanitizeChars_eq_self hparts hdigit]

/-! ## What belongs to an application -/

/-- The names that belong to an application: its own name, and those of its symbols. -/
inductive Names (application : String) : String → Prop
  | own : Names application application
  | symbol (ofName : String) : Names application (owned application ofName)

/-- Whatever belongs to an application begins with the number of its position. -/
theorem Names.numbered {position : Nat} {kind : String} (h : Names (application position kind) s) :
    ∃ rest, s.toList = 'n' :: ((toString position).toList ++ '_' :: rest) ∧
      ∀ c ∈ s.toList, isPart c = true := by
  cases h with
  | own => exact ⟨(sanitize kind).toList, by simp [application], fun _ => isPart_of_mem_application⟩
  | symbol ofName =>
    refine ⟨(sanitize kind ++ "_" ++ sanitize ofName).toList, by simp [owned, application], fun c hc => ?_⟩
    simp only [owned, String.toList_append, List.mem_append] at hc
    rcases hc with (hc | hc) | hc
    · exact isPart_of_mem_application hc
    · rw [List.mem_singleton.1 hc]
      decide
    · rw [sanitize, String.toList_ofList] at hc
      exact isPart_of_mem_sanitizeChars hc

theorem Names.isIdentifier {position : Nat} {kind : String} (h : Names (application position kind) s) :
    IsIdentifier s := by
  obtain ⟨rest, hs, hparts⟩ := h.numbered
  exact isIdentifier_of_isPart hs hparts (by decide)

/-- No symbol of the prelude begins as these names do. -/
theorem Names.not_reserved {position : Nat} {kind : String} (h : Names (application position kind) s) :
    s ∉ Module.reservedSymbols := by
  obtain ⟨rest, hs, -⟩ := h.numbered
  have hhead : ∀ symbol ∈ Module.reservedSymbols, symbol.toList.head? ≠ some 'n' := by decide
  intro hmem
  exact hhead s hmem (by rw [hs]; rfl)

/-- **The digits up to the first underscore tell the position.** -/
theorem Names.position_eq {i j : Nat} {kind kind' : String} (h : Names (application i kind) s)
    (h' : Names (application j kind') s) : i = j := by
  obtain ⟨rest, hs, -⟩ := h.numbered
  obtain ⟨rest', hs', -⟩ := h'.numbered
  have hdigits : ∀ n : Nat, '_' ∉ (toString n).toList := fun n hmem =>
    absurd (Text.isDigit_of_mem_toString hmem) (by decide)
  have htails := (List.cons.inj (hs.symm.trans hs')).2
  obtain ⟨hsame, -⟩ := Text.append_cons_inj_first (hdigits i) (hdigits j) htails
  exact Nat.repr_inj.1 (String.toList_inj.1 hsame)

theorem getElem?_applications {kinds : List String} {i : Nat} {name : String}
    (h : (applications kinds)[i]? = some name) : ∃ kind, name = application i kind := by
  rw [applications, List.getElem?_mapIdx] at h
  obtain ⟨kind, -, rfl⟩ := Option.map_eq_some_iff.1 h
  exact ⟨kind, rfl⟩

end Symbol

/-! ## Names in modules -/

namespace Assembly

variable {g : Graph} {apps : List Application} {p p' : Progress}

theorem names_of_foldlM (h : apps.foldlM (Progress.add g) p = .ok p') :
    p'.signatures.map (·.name) = p.signatures.map (·.name) ++
      apps.mapIdx fun i a => Symbol.application (p.signatures.length + i) a.kind.name := by
  induction apps generalizing p with
  | nil =>
    cases h
    simp
  | cons a apps ih =>
    rw [List.foldlM_cons] at h
    obtain ⟨q, hadd, hrest⟩ := Outcome.bind_eq_ok.1 h
    obtain ⟨-, _, _, _, _, _, _, _, -, -, -, -, -, rfl⟩ := Progress.add_eq_ok hadd
    rw [ih hrest, List.map_append, List.mapIdx_cons, List.append_assoc]
    simp [signature, context, Nat.add_assoc, Nat.add_comm 1]

/-- The applications of a module are named by their positions and kinds. -/
theorem names_eq {m : Module} (h : assemble g = .ok m) :
    m.applications.map (·.name) = Symbol.applications (g.applications.map (·.kind.name)) := by
  obtain ⟨p, q, hp, -, rfl⟩ := assemble_eq_ok h
  have hnames := names_of_foldlM hp
  refine hnames.trans (List.ext_getElem? fun i => ?_)
  simp [Progress.start, Symbol.applications, Function.comp_def]

end Assembly

/-- **Names are identifiers, and tell positions apart.** Applications of any kinds, and symbols of any names in
them, are named by identifiers that are none of the prelude's, and what belongs to one position belongs to no
other; modules are assembled with these names. Any text becomes an identifier, which stays as it is. -/
theorem Symbol.names_apart (kinds : List String) :
    (applications kinds).length = kinds.length ∧
    (∀ (i : Nat) (name s : String), (applications kinds)[i]? = some name → Names name s →
      IsIdentifier s ∧ s ∉ Module.reservedSymbols) ∧
    (∀ (i j : Nat) (name other s t : String), (applications kinds)[i]? = some name →
      (applications kinds)[j]? = some other → i ≠ j → Names name s → Names other t → s ≠ t) ∧
    (∀ g m, Assembly.assemble g = .ok m → g.applications.map (·.kind.name) = kinds →
      m.applications.map (·.name) = applications kinds) ∧
    ∀ text, IsIdentifier (sanitize text) ∧ sanitize (sanitize text) = sanitize text := by
  refine ⟨by simp [applications], fun i name s hname hs => ?_, fun i j name other s t hi hj hne hs ht => ?_,
    fun g m hm hkinds => hkinds ▸ Assembly.names_eq hm,
    fun text => ⟨isIdentifier_sanitize text, sanitize_sanitize text⟩⟩
  · obtain ⟨kind, rfl⟩ := getElem?_applications hname
    exact ⟨hs.isIdentifier, hs.not_reserved⟩
  · obtain ⟨kind, rfl⟩ := getElem?_applications hi
    obtain ⟨kind', rfl⟩ := getElem?_applications hj
    rintro rfl
    exact hne (hs.position_eq ht)

/-- A kind that imitates the name of another position does not get its names. -/
theorem Symbol.names_apart_imitating :
    applications ["1_a", "n0__1_a"] = ["n0__1_a", "n1_n0__1_a"] ∧
    ∀ ofName ofName', owned "n0__1_a" ofName ≠ owned "n1_n0__1_a" ofName' := by
  have hnames : applications ["1_a", "n0__1_a"] = ["n0__1_a", "n1_n0__1_a"] := by decide +kernel
  obtain ⟨-, -, hapart, -⟩ := names_apart ["1_a", "n0__1_a"]
  rw [hnames] at hapart
  exact ⟨hnames, fun ofName ofName' =>
    hapart 0 1 _ _ _ _ rfl rfl (by decide) (.symbol ofName) (.symbol ofName')⟩

end OpFusion
