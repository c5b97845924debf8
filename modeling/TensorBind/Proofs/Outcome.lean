import Mathlib

/-!
# Success of computations that can fail

Most functions of the library answer with a value or with a cause of
failure. A success of the whole is a success of every part, and that is
what the statements here say: of two steps in a row (`Except.bind_eq_ok`),
of one step for each member of a list (`List.mapM_eq_ok`), and of a list of
steps that hand a state on. For the last there are two forms. Given that
the whole succeeds, `List.foldlM_invariant` carries a property of the state
to the end; `List.foldlM_eq_ok_of_step` also shows that the whole succeeds,
if every step does from a state with the property. Two such lists of steps
are compared by `List.foldlM_lockstep`.
-/

namespace Except

variable {ε ε' α β : Type}

/-- A success followed by a step is that step. -/
@[simp] theorem ok_bind (a : α) (f : α → Except ε β) :
    (Except.ok a >>= f) = f a := rfl

/-- A failure stays what it is. -/
@[simp] theorem error_bind (e : ε) (f : α → Except ε β) :
    ((Except.error e : Except ε α) >>= f) = .error e := rfl

@[simp] theorem pure_eq_ok_iff (a b : α) :
    (pure a : Except ε α) = .ok b ↔ a = b := by
  show Except.ok a = .ok b ↔ _
  rw [Except.ok.injEq]

/-- **Two steps succeed** exactly if the first does and the second does
from there. -/
theorem bind_eq_ok {x : Except ε α} {f : α → Except ε β} {b : β} :
    (x >>= f) = .ok b ↔ ∃ a, x = .ok a ∧ f a = .ok b := by
  cases x with
  | error e => simp
  | ok a => simp

/-- **Doing one thing after another** fails where one of them does. -/
theorem bind_eq_error {x : Except ε α} {f : α → Except ε β} {e : ε} :
    (x >>= f) = .error e
      ↔ x = .error e ∨ ∃ a, x = .ok a ∧ f a = .error e := by
  cases x with
  | error e => simp
  | ok a => simp

/-- Renaming a cause of failure does not touch a success. -/
@[simp] theorem mapError_eq_ok {f : ε → ε'} {x : Except ε α} {a : α} :
    x.mapError f = .ok a ↔ x = .ok a := by
  cases x <;> simp [Except.mapError]

theorem mapError_eq_error {f : ε → ε'} {x : Except ε α} {e : ε'} :
    x.mapError f = .error e ↔ ∃ cause, x = .error cause ∧ f cause = e := by
  cases x <;> simp [Except.mapError]

/-- Mapping over the value of a success. -/
theorem map_eq_ok {f : α → β} {x : Except ε α} {b : β} :
    x.map f = .ok b ↔ ∃ a, x = .ok a ∧ f a = b := by
  cases x <;> simp [Except.map]

/-- A success that is sure can be taken out. -/
theorem eq_ok_get {x : Except ε α} (h : x.toOption.isSome) :
    x = .ok (x.toOption.get h) := by
  cases x with
  | error e => cases h
  | ok a => rfl

end Except

namespace List

variable {ε σ α β : Type}

/-- What stands in a list with one more entry stood there before or is the
entry. -/
theorem getElem?_concat_eq_some {l : List α} {a b : α} {k : Nat} :
    (l ++ [a])[k]? = some b ↔ l[k]? = some b ∨ k = l.length ∧ a = b := by
  rcases Nat.lt_trichotomy k l.length with h | rfl | h
  · rw [getElem?_append_left h]
    exact (or_iff_left fun hk => Nat.ne_of_lt h hk.1).symm
  · rw [getElem?_concat_length, getElem?_eq_none (Nat.le_refl _)]
    simp
  · rw [getElem?_eq_none (Nat.le_of_lt h), getElem?_eq_none (by
      rw [length_append]; exact h)]
    simp [Nat.ne_of_gt h]

/-- What stands in a list stands there when the list has grown. -/
theorem IsPrefix.getElem?_eq_some {l r : List α} (h : l <+: r) {k : Nat}
    {a : α} (ha : l[k]? = some a) : r[k]? = some a := by
  obtain ⟨rest, rfl⟩ := h
  rw [getElem?_append_left (getElem?_eq_some_iff.mp ha).1, ha]

/-- Exchanging a member for one that looks the same changes nothing of how
the list looks. -/
theorem map_set_eq {f : α → β} {l : List α} {k : Nat} {a b : α}
    (ha : l[k]? = some a) (hb : f b = f a) :
    (l.set k b).map f = l.map f := by
  obtain ⟨hk, rfl⟩ := getElem?_eq_some_iff.mp ha
  have hlt : k < (l.map f).length := by rwa [length_map]
  have hself := set_getElem_self hlt
  rw [map_set, hb]
  rwa [getElem_map] at hself

theorem map_modify_eq {f : α → β} {change : α → α}
    (h : ∀ a, f (change a) = f a) (l : List α) (k : Nat) :
    (l.modify k change).map f = l.map f := by
  rw [modify_eq_set_getElem?]
  cases hk : l[k]? with
  | none => rfl
  | some a => exact map_set_eq hk (h a)

/-- **What is found under a key** is the one member that has it. -/
theorem find?_key_eq_some [BEq β] [LawfulBEq β] {key : α → β} {l : List α}
    (h : (l.map key).Nodup) {a : α} {b : β} :
    l.find? (fun a => key a == b) = some a ↔ a ∈ l ∧ key a = b := by
  constructor
  · intro hfind
    exact ⟨mem_of_find?_eq_some hfind, by simpa using find?_some hfind⟩
  · rintro ⟨ha, rfl⟩
    obtain ⟨a', hfind⟩ : ∃ a', l.find? (key · == key a) = some a' := by
      rw [← Option.isSome_iff_exists, find?_isSome]
      exact ⟨a, ha, beq_self_eq_true _⟩
    rw [hfind, inj_on_of_nodup_map h (mem_of_find?_eq_some hfind) ha
      (by simpa using find?_some hfind)]

/-- A function that gives different results for all members of a list gives
each result at one place. -/
theorem existsUnique_of_nodup_filterMap {f : α → Option β} {l : List α}
    (h : (l.filterMap f).Nodup) {b : β} (hb : b ∈ l.filterMap f) :
    ∃! k : Nat, ∃ a, l[k]? = some a ∧ f a = some b := by
  obtain ⟨a, ha, hfa⟩ := mem_filterMap.mp hb
  obtain ⟨k, hk⟩ := mem_iff_getElem?.mp ha
  refine ⟨k, ⟨a, hk, hfa⟩, ?_⟩
  rintro k' ⟨a', hk', hfa'⟩
  rw [Nodup, pairwise_filterMap, pairwise_iff_getElem] at h
  obtain ⟨hlt, rfl⟩ := getElem?_eq_some_iff.mp hk
  obtain ⟨hlt', rfl⟩ := getElem?_eq_some_iff.mp hk'
  rcases Nat.lt_trichotomy k' k with hless | heq | hmore
  · exact absurd rfl (h k' k hlt' hlt hless b hfa' b hfa)
  · exact heq
  · exact absurd rfl (h k k' hlt hlt' hmore b hfa b hfa')

/-- Looking up a member that is sure to be there leaves out none. -/
theorem Forall₂.filterMap_eq {f : α → Option β} {l : List α} {r : List β}
    (h : Forall₂ (fun a b => f a = some b) l r) : l.filterMap f = r := by
  induction h with
  | nil => rfl
  | cons hab _ ih => rw [filterMap_cons_some hab, ih]

/-- A partner for each member makes a list of partners. -/
theorem exists_forall₂ {R : α → β → Prop} {l : List α}
    (h : ∀ a ∈ l, ∃ b, R a b) : ∃ r, Forall₂ R l r := by
  induction l with
  | nil => exact ⟨[], .nil⟩
  | cons a l ih =>
    obtain ⟨⟨b, hb⟩, hl⟩ := forall_mem_cons.mp h
    obtain ⟨r, hr⟩ := ih hl
    exact ⟨b :: r, .cons hb hr⟩

/-- Related lists have a partner for each member. -/
theorem Forall₂.exists_of_mem {R : α → β → Prop} {l : List α} {r : List β}
    (h : Forall₂ R l r) {a : α} (ha : a ∈ l) : ∃ b ∈ r, R a b := by
  induction h with
  | nil => exact absurd ha not_mem_nil
  | cons hab _ ih =>
    rcases mem_cons.mp ha with rfl | ha
    · exact ⟨_, mem_cons_self, hab⟩
    · obtain ⟨b, hb, hR⟩ := ih ha
      exact ⟨b, mem_cons_of_mem _ hb, hR⟩

/-- Related lists have partners at the same positions. -/
theorem Forall₂.exists_getElem? {R : α → β → Prop} {l : List α} {r : List β}
    (h : Forall₂ R l r) {k : Nat} {a : α} (ha : l[k]? = some a) :
    ∃ b, r[k]? = some b ∧ R a b := by
  induction h generalizing k with
  | nil => cases ha
  | cons hab _ ih =>
    cases k with
    | zero =>
      cases ha
      exact ⟨_, rfl, hab⟩
    | succ k => exact ih ha

/-- Looking up a member and then its partner is looking up the partner. -/
theorem Forall₂.getElem?_bind {f : α → Option β} {l : List α} {r : List β}
    (h : Forall₂ (fun a b => f a = some b) l r) (n : Nat) :
    l[n]?.bind f = r[n]? := by
  induction h generalizing n with
  | nil => rfl
  | cons hab _ ih =>
    cases n with
    | zero => exact hab
    | succ n => exact ih n

/-- Two lists of partners of one list go together. -/
theorem Forall₂.join {γ : Type} {R : α → β → Prop} {S : α → γ → Prop}
    {T : β → γ → Prop} {l : List α} {r : List β} {s : List γ}
    (hr : Forall₂ R l r) (hs : Forall₂ S l s)
    (h : ∀ a b c, a ∈ l → R a b → S a c → T b c) : Forall₂ T r s := by
  induction hr generalizing s with
  | nil =>
    cases hs
    exact .nil
  | cons hab _ ih =>
    obtain ⟨c, s, hac, hrest, rfl⟩ := forall₂_cons_left_iff.mp hs
    exact .cons (h _ _ _ mem_cons_self hab hac)
      (ih hrest fun a b c ha => h a b c (mem_cons_of_mem _ ha))

/-- Partners of pairs are partners of both sides. -/
theorem forall₂_zip_iff {γ : Type} {R : α → γ → Prop} {S : β → γ → Prop}
    {l : List α} {r : List β} {s : List γ} (h : l.length = r.length) :
    Forall₂ (fun p c => R p.1 c ∧ S p.2 c) (l.zip r) s
      ↔ Forall₂ R l s ∧ Forall₂ S r s := by
  induction l generalizing r s with
  | nil =>
    obtain rfl := length_eq_zero_iff.mp h.symm
    simp
  | cons a l ih =>
    cases r with
    | nil => exact absurd h (by simp)
    | cons b r =>
      cases s with
      | nil => simp
      | cons c s =>
        rw [zip_cons_cons, forall₂_cons, forall₂_cons, forall₂_cons,
          ih (Nat.succ.inj h), and_and_and_comm]

/-- **A step for each member succeeds** exactly if every one does, with
the results in order. -/
theorem mapM_eq_ok {f : α → Except ε β} {l : List α} {r : List β} :
    l.mapM f = .ok r ↔ Forall₂ (fun a b => f a = .ok b) l r := by
  induction l generalizing r with
  | nil =>
    rw [mapM_nil, Except.pure_eq_ok_iff, forall₂_nil_left_iff]
    exact eq_comm
  | cons a l ih =>
    rw [mapM_cons, Except.bind_eq_ok, forall₂_cons_left_iff]
    constructor
    · rintro ⟨b, hb, hrest⟩
      obtain ⟨bs, hbs, h⟩ := Except.bind_eq_ok.mp hrest
      exact ⟨b, bs, hb, ih.mp hbs, ((Except.pure_eq_ok_iff _ _).mp h).symm⟩
    · rintro ⟨b, bs, hb, hbs, rfl⟩
      exact ⟨b, hb, Except.bind_eq_ok.mpr ⟨bs, ih.mpr hbs, rfl⟩⟩

/-- What fails is a step for one of the members. -/
theorem exists_of_mapM_eq_error {f : α → Except ε β} {l : List α} {e : ε}
    (h : l.mapM f = .error e) : ∃ a ∈ l, f a = .error e := by
  induction l with
  | nil => cases h
  | cons a l ih =>
    rw [mapM_cons, Except.bind_eq_error] at h
    rcases h with h | ⟨b, -, h⟩
    · exact ⟨a, mem_cons_self, h⟩
    · rcases Except.bind_eq_error.mp h with h | ⟨bs, -, ⟨⟩⟩
      obtain ⟨c, hc, hfail⟩ := ih h
      exact ⟨c, mem_cons_of_mem a hc, hfail⟩

/-- **A check of each member succeeds** exactly if every one does. -/
theorem forM_eq_ok {f : α → Except ε Unit} {l : List α} :
    l.forM f = .ok () ↔ ∀ a ∈ l, f a = .ok () := by
  induction l with
  | nil => exact ⟨fun _ => forall_mem_nil _, fun _ => rfl⟩
  | cons a l ih =>
    rw [forall_mem_cons, ← ih]
    exact Except.bind_eq_ok.trans
      ⟨fun ⟨_, h⟩ => h, fun h => ⟨(), h⟩⟩

/-- What fails is the check of one of the members. -/
theorem exists_of_forM_eq_error {f : α → Except ε Unit} {l : List α} {e : ε}
    (h : l.forM f = .error e) : ∃ a ∈ l, f a = .error e := by
  induction l with
  | nil => cases h
  | cons a l ih =>
    rcases Except.bind_eq_error.mp h with h | ⟨_, -, h⟩
    · exact ⟨a, mem_cons_self, h⟩
    · obtain ⟨c, hc, hfail⟩ := ih h
      exact ⟨c, mem_cons_of_mem a hc, hfail⟩

/-- Where members are only counted for the wording of failures, the count
does not matter to a success. -/
theorem forM_zipIdx_eq_ok {f : α × Nat → Except ε Unit} {P : α → Prop}
    (h : ∀ a k, f (a, k) = .ok () ↔ P a) {l : List α} :
    l.zipIdx.forM f = .ok () ↔ ∀ a ∈ l, P a := by
  have hmembers := forall_mem_map (f := Prod.fst) (l := l.zipIdx) (P := P)
  rw [zipIdx_map_fst] at hmembers
  rw [forM_eq_ok, hmembers]
  exact forall₂_congr fun pair _ => h pair.1 pair.2

/-- The state after one more member. -/
theorem foldlM_take_succ {f : σ → α → Except ε σ} {l : List α} {s : σ}
    {k : Nat} (hk : k < l.length) :
    (l.take (k + 1)).foldlM f s
      = (l.take k).foldlM f s >>= fun s' => f s' l[k] := by
  rw [take_succ_eq_append_getElem hk, foldlM_append]
  simp

/-- **A property that every step keeps holds at the end.** -/
theorem foldlM_invariant {f : σ → α → Except ε σ} {l : List α} {s t : σ}
    (P : Nat → σ → Prop) (h0 : P 0 s)
    (hstep : ∀ k (hk : k < l.length) s t, P k s → f s l[k] = .ok t →
      P (k + 1) t)
    (h : l.foldlM f s = .ok t) : P l.length t := by
  have hprefix : ∀ k ≤ l.length, ∀ t, (l.take k).foldlM f s = .ok t →
      P k t := by
    intro k
    induction k with
    | zero =>
      intro _ t ht
      rw [take_zero, foldlM_nil, Except.pure_eq_ok_iff] at ht
      exact ht ▸ h0
    | succ k ih =>
      intro hk t ht
      rw [foldlM_take_succ hk, Except.bind_eq_ok] at ht
      obtain ⟨s', hs', hf⟩ := ht
      exact hstep k hk s' t (ih (by omega) s' hs') hf
  exact hprefix l.length (Nat.le_refl _) t (by rwa [take_length])

/-- **Where a run fails, one of its steps does**, from a state with the
properties that the steps before it keep. -/
theorem exists_of_foldlM_eq_error {f : σ → α → Except ε σ} {l : List α}
    {s : σ} {e : ε} (P : Nat → σ → Prop) (h0 : P 0 s)
    (hstep : ∀ k (hk : k < l.length) s t, P k s → f s l[k] = .ok t →
      P (k + 1) t)
    (h : l.foldlM f s = .error e) :
    ∃ k, ∃ hk : k < l.length, ∃ s, P k s ∧ f s l[k] = .error e := by
  induction l generalizing s P with
  | nil => cases h
  | cons a l ih =>
    rw [foldlM_cons, Except.bind_eq_error] at h
    rcases h with h | ⟨t, ht, h⟩
    · exact ⟨0, Nat.zero_lt_succ _, s, h0, h⟩
    · obtain ⟨k, hk, s', hs', he⟩ := ih (fun k => P (k + 1))
        (hstep 0 (Nat.zero_lt_succ _) s t h0 ht)
        (fun k hk => hstep (k + 1) (Nat.succ_lt_succ hk)) h
      exact ⟨k + 1, Nat.succ_lt_succ hk, s', hs', he⟩

/-- **If every step succeeds from a state with a property and keeps it,
all of them do**, and the property holds at the end. -/
theorem foldlM_eq_ok_of_step {f : σ → α → Except ε σ} {l : List α} {s : σ}
    (P : Nat → σ → Prop) (h0 : P 0 s)
    (hstep : ∀ k (hk : k < l.length) s, P k s →
      ∃ t, f s l[k] = .ok t ∧ P (k + 1) t) :
    ∃ t, l.foldlM f s = .ok t ∧ P l.length t := by
  have hprefix : ∀ k ≤ l.length,
      ∃ t, (l.take k).foldlM f s = .ok t ∧ P k t := by
    intro k
    induction k with
    | zero => exact fun _ => ⟨s, rfl, h0⟩
    | succ k ih =>
      intro hk
      obtain ⟨s', hs', hP⟩ := ih (by omega)
      obtain ⟨t, ht, hP'⟩ := hstep k hk s' hP
      exact ⟨t, by rw [foldlM_take_succ hk, hs', Except.ok_bind, ht], hP'⟩
  have hall := hprefix l.length (Nat.le_refl _)
  rwa [take_length] at hall

/-- **A list that grows by one entry for each member**, each computed from
the entries before it: the whole is a list whose entries are what its own
beginnings give. -/
theorem foldlM_concat_eq_ok {f : List β → α → Except ε β} {l : List α}
    {r : List β} :
    l.foldlM (fun acc a => do return acc ++ [← f acc a]) [] = .ok r
      ↔ r.length = l.length ∧ ∀ (k : Nat) (a : α) (b : β),
        l[k]? = some a → r[k]? = some b → f (r.take k) a = .ok b := by
  induction l using List.reverseRecOn generalizing r with
  | nil =>
    rw [foldlM_nil, Except.pure_eq_ok_iff, length_nil, length_eq_zero_iff]
    constructor
    · rintro rfl
      simp
    · exact fun h => h.1.symm
  | append_singleton l a ih =>
    rw [foldlM_append, Except.bind_eq_ok]
    simp only [foldlM_cons, foldlM_nil, bind_pure]
    constructor
    · rintro ⟨acc, hacc, hlast⟩
      obtain ⟨b, hb, hr⟩ := Except.bind_eq_ok.mp hlast
      rw [Except.pure_eq_ok_iff] at hr
      subst hr
      obtain ⟨hlen, hall⟩ := ih.mp hacc
      refine ⟨by simp [hlen], fun k x y hx hy => ?_⟩
      rcases Nat.lt_or_ge k l.length with hk | hk
      · rw [getElem?_append_left hk] at hx
        rw [getElem?_append_left (by omega)] at hy
        rw [take_append_of_le_length (by omega)]
        exact hall k x y hx hy
      · have hkeq : k = l.length := by
          have := (getElem?_eq_some_iff.mp hx).1
          rw [length_append, length_singleton] at this
          omega
        subst hkeq
        rw [getElem?_concat_length, Option.some.injEq] at hx
        rw [← hlen, getElem?_concat_length, Option.some.injEq] at hy
        rw [← hlen, take_left, ← hx, ← hy, hb]
    · rintro ⟨hlen, hall⟩
      rw [length_append, length_singleton] at hlen
      have hlt : l.length < r.length := by omega
      have hsplit : r.take l.length ++ [r[l.length]] = r := by
        rw [← take_succ_eq_append_getElem hlt, ← hlen, take_length]
      refine ⟨r.take l.length, ih.mpr ⟨by simp; omega, ?_⟩, ?_⟩
      · intro k x y hx hy
        have hk := (getElem?_eq_some_iff.mp hx).1
        rw [getElem?_take_of_lt hk] at hy
        rw [take_take, Nat.min_eq_left (Nat.le_of_lt hk)]
        exact hall k x y (by rw [getElem?_append_left hk, hx]) hy
      · rw [hall l.length a _ (getElem?_concat_length) (getElem?_eq_getElem hlt)]
        exact (Except.pure_eq_ok_iff _ _).mpr hsplit

/-- **Two lists of steps in lockstep.** If each step of the second on the
image of a state does what the step of the first does on the state, the
whole of the second does what the whole of the first does. -/
theorem foldlM_lockstep {ε' τ : Type} {f : σ → α → Except ε σ}
    {g : τ → β → Except ε' τ} {image : σ → τ} {R : α → β → Prop}
    (hstep : ∀ a b s t, R a b →
      (g (image s) b = .ok t ↔ ∃ s', f s a = .ok s' ∧ image s' = t))
    {l : List α} {r : List β} (h : Forall₂ R l r) {s : σ} {t : τ} :
    r.foldlM g (image s) = .ok t
      ↔ ∃ s', l.foldlM f s = .ok s' ∧ image s' = t := by
  induction h generalizing s with
  | nil => simp only [foldlM_nil, Except.pure_eq_ok_iff, exists_eq_left']
  | cons hab _ ih =>
    simp only [foldlM_cons, Except.bind_eq_ok]
    constructor
    · rintro ⟨t', ht', hrest⟩
      obtain ⟨s', hs', rfl⟩ := (hstep _ _ _ _ hab).mp ht'
      obtain ⟨s'', hs'', himage⟩ := ih.mp hrest
      exact ⟨s'', ⟨s', hs', hs''⟩, himage⟩
    · rintro ⟨s'', ⟨s', hs', hs''⟩, himage⟩
      exact ⟨image s', (hstep _ _ _ _ hab).mpr ⟨s', hs', rfl⟩,
        ih.mpr ⟨s'', hs'', himage⟩⟩

end List
