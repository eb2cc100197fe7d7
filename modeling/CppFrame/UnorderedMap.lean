import Mathlib.Data.List.AList

/-!
# Unordered maps

`UMap κ α` is an `std::unordered_map`: finitely many nodes with distinct keys, listed in the order
in which the container is walked. That order is the implementation's business: whenever
`operator[]` links in a new node an `Arrangement` says how all nodes are ordered afterwards, so a
result that holds for every arrangement holds for every iteration order (a rehash included).

`Related R` says that two maps have the same keys in the same order, with values that `R` relates.
It is kept by the same operation on both.
-/

/-- A hash map with keys `κ` and mapped values `α`; `entries` lists its nodes in walking order. -/
abbrev UMap (κ α : Type) := AList (fun _ : κ => α)

namespace UMap

open List

variable {κ α β : Type}

/-- Where the nodes of a map stand after a new one (given first) has been linked in. -/
structure Arrangement (κ α : Type) where
  order : List (Σ _ : κ, α) → List (Σ _ : κ, α)
  perm : ∀ l, (order l).Perm l

/-- The arrangement that leaves the new node in front. -/
def Arrangement.front : Arrangement κ α := ⟨id, fun _ => .rfl⟩

/-- The container has no nodes. -/
def isEmpty (m : UMap κ α) : Bool := m.entries.isEmpty

theorem eq_empty_of_isEmpty {m : UMap κ α} (h : m.isEmpty = true) : m = ∅ :=
  AList.ext (List.isEmpty_iff.1 h)

/-- The map without the nodes that `p` picks out, the others in the order they had. -/
def eraseIf (p : κ → α → Bool) (m : UMap κ α) : UMap κ α where
  entries := m.entries.filter fun n => !p n.1 n.2
  nodupKeys := m.nodupKeys.sublist filter_sublist

variable [DecidableEq κ]

/-- `operator[]`: the node of `k`, made with the value-initialised `default` when there is none. -/
def index [Inhabited α] (r : Arrangement κ α) (k : κ) (m : UMap κ α) : UMap κ α :=
  if h : k ∈ m then m
  else ⟨r.order (⟨k, default⟩ :: m.entries),
    (perm_nodupKeys (r.perm _)).2 (nodupKeys_cons.2 ⟨h, m.nodupKeys⟩)⟩

/-- The mapped value that `operator[]` refers to. -/
def get [Inhabited α] (k : κ) (m : UMap κ α) : α := (m.lookup k).getD default

/-- The nodes after a write through a reference to the mapped value of `k`. -/
def modifyNodes (k : κ) (f : α → α) (l : List (Σ _ : κ, α)) : List (Σ _ : κ, α) :=
  l.map fun n => if n.1 = k then ⟨n.1, f n.2⟩ else n

theorem keys_modifyNodes (k : κ) (f : α → α) (l : List (Σ _ : κ, α)) :
    (modifyNodes k f l).keys = l.keys := by
  unfold modifyNodes keys
  rw [map_map]
  refine map_congr_left fun n _ => ?_
  by_cases h : n.1 = k
  · simp [h]
  · simp [h]

/-- Writing through a reference to the mapped value of `k`, where there is such a node. -/
def modify (k : κ) (f : α → α) (m : UMap κ α) : UMap κ α where
  entries := modifyNodes k f m.entries
  nodupKeys := by
    have h := m.nodupKeys
    unfold NodupKeys at *
    rwa [keys_modifyNodes]

/-! ## Lookups -/

theorem mem_entries {k : κ} {v : α} {m : UMap κ α} :
    ⟨k, v⟩ ∈ m.entries ↔ m.lookup k = some v := AList.mem_lookup_iff.symm

theorem forall_entries {P : κ → α → Prop} {m : UMap κ α} :
    (∀ n ∈ m.entries, P n.1 n.2) ↔ ∀ k v, m.lookup k = some v → P k v := by
  constructor
  · intro h k v hk
    exact h ⟨k, v⟩ (mem_entries.2 hk)
  · intro h n hn
    exact h n.1 n.2 (mem_entries.1 hn)

theorem index_of_mem [Inhabited α] {r : Arrangement κ α} {k : κ} {m : UMap κ α} (h : k ∈ m) :
    index r k m = m := by
  unfold index; rw [dif_pos h]

theorem perm_index_of_notMem [Inhabited α] {r : Arrangement κ α} {k : κ} {m : UMap κ α}
    (h : k ∉ m) : (index r k m).entries.Perm (⟨k, default⟩ :: m.entries) := by
  unfold index; rw [dif_neg h]; exact r.perm _

theorem lookup_index [Inhabited α] (r : Arrangement κ α) (k k' : κ) (m : UMap κ α) :
    (index r k m).lookup k' = if k' = k then some (m.get k) else m.lookup k' := by
  by_cases h : k ∈ m
  · rw [index_of_mem h]
    split_ifs with hk
    · subst hk
      obtain ⟨v, hv⟩ := Option.isSome_iff_exists.1 (AList.lookup_isSome.2 h)
      simp [get, hv]
    · rfl
  · have hp : (index r k m).entries.Perm (m.insert k default).entries := by
      rw [AList.entries_insert_of_notMem h]; exact perm_index_of_notMem h
    rw [AList.perm_lookup hp]
    split_ifs with hk
    · subst hk
      rw [AList.lookup_insert, get, AList.lookup_eq_none.2 h]; rfl
    · exact AList.lookup_insert_ne hk

theorem lookup_erase (k k' : κ) (m : UMap κ α) :
    (m.erase k).lookup k' = if k' = k then none else m.lookup k' := by
  split_ifs with hk
  · subst hk; exact AList.lookup_erase k' m
  · exact AList.lookup_erase_ne hk

theorem mem_index [Inhabited α] (r : Arrangement κ α) (k : κ) (m : UMap κ α) : k ∈ index r k m := by
  rw [← AList.lookup_isSome, lookup_index, if_pos rfl]; rfl

theorem get_index [Inhabited α] (r : Arrangement κ α) (k k' : κ) (m : UMap κ α) :
    (index r k m).get k' = m.get k' := by
  rw [get, get, lookup_index]
  split_ifs with hk
  · subst hk; rfl
  · rfl

theorem get_erase [Inhabited α] (k k' : κ) (m : UMap κ α) :
    get k' (m.erase k) = if k' = k then default else m.get k' := by
  rw [get, lookup_erase]
  split_ifs with hk
  · rfl
  · rfl

theorem lookup_eraseIf (p : κ → α → Bool) (k : κ) (m : UMap κ α) :
    (m.eraseIf p).lookup k = (m.lookup k).filter fun v => !p k v := by
  refine Option.ext fun v => ?_
  rw [← mem_entries, Option.filter_eq_some_iff, ← mem_entries]
  exact mem_filter

/-! ## Writes keep the nodes where they are -/

theorem entries_modify (k : κ) (f : α → α) (m : UMap κ α) :
    (m.modify k f).entries = modifyNodes k f m.entries := rfl

theorem lookup_modify (k k' : κ) (f : α → α) (m : UMap κ α) :
    (m.modify k f).lookup k' = if k' = k then (m.lookup k).map f else m.lookup k' := by
  refine Option.ext fun v => ?_
  rw [← mem_entries, entries_modify, modifyNodes, mem_map]
  split_ifs with hk
  · subst hk
    rw [Option.map_eq_some_iff]
    constructor
    · rintro ⟨⟨k, w⟩, hn, he⟩
      by_cases hk : k = k'
      · subst hk
        rw [if_pos rfl] at he
        cases he
        exact ⟨w, mem_entries.1 hn, rfl⟩
      · rw [if_neg hk] at he
        exact absurd (Sigma.mk.inj he).1 hk
    · rintro ⟨w, hw, rfl⟩
      exact ⟨⟨k', w⟩, mem_entries.2 hw, if_pos rfl⟩
  · rw [← mem_entries]
    constructor
    · rintro ⟨⟨k'', w⟩, hn, he⟩
      by_cases h2 : k'' = k
      · rw [if_pos h2] at he
        exact absurd ((Sigma.mk.inj he).1.symm.trans h2) hk
      · rw [if_neg h2] at he
        exact he ▸ hn
    · exact fun hn => ⟨_, hn, if_neg hk⟩

theorem get_modify [Inhabited α] (k k' : κ) (f : α → α) (m : UMap κ α) :
    get k' (m.modify k f) = if k' = k ∧ k ∈ m then f (m.get k) else m.get k' := by
  rw [get, lookup_modify]
  by_cases hk : k' = k
  · subst hk
    rw [if_pos rfl]
    by_cases hm : k' ∈ m
    · obtain ⟨v, hv⟩ := Option.isSome_iff_exists.1 (AList.lookup_isSome.2 hm)
      rw [if_pos ⟨rfl, hm⟩, get, hv]
      rfl
    · rw [if_neg fun h => hm h.2, get, AList.lookup_eq_none.2 hm]
      rfl
  · rw [if_neg hk, if_neg fun h => hk h.1]
    rfl

/-- A write through `operator[]`. -/
theorem get_modify_index [Inhabited α] (r : Arrangement κ α) (k k' : κ) (f : α → α)
    (m : UMap κ α) :
    get k' ((m.index r k).modify k f) = if k' = k then f (m.get k) else m.get k' := by
  simp only [get_modify, mem_index, and_true, get_index]

/-- A write of the value that is there. -/
theorem modify_eq_self [Inhabited α] {k : κ} {f : α → α} {m : UMap κ α}
    (h : f (m.get k) = m.get k) :
    m.modify k f = m := by
  refine AList.ext ((List.map_congr_left fun n hn => ?_).trans (List.map_id _))
  split_ifs with hk
  · subst hk
    rw [get, mem_entries.1 hn] at h
    exact Sigma.ext rfl (heq_of_eq h)
  · rfl

theorem modify_modify (k : κ) (f g : α → α) (m : UMap κ α) :
    (m.modify k f).modify k g = m.modify k fun v => g (f v) := by
  refine AList.ext ((List.map_map).trans (List.map_congr_left fun n _ => ?_))
  by_cases hk : n.1 = k
  · simp [hk]
  · simp [hk]

theorem isEmpty_iff {m : UMap κ α} : m.isEmpty = true ↔ ∀ k, m.lookup k = none := by
  rw [isEmpty, List.isEmpty_iff]
  constructor
  · intro h k
    refine AList.lookup_eq_none.2 fun hk => ?_
    rw [AList.mem_keys, AList.keys, h] at hk
    cases hk
  · intro h
    refine eq_nil_iff_forall_not_mem.2 fun n hn => ?_
    have := h n.1
    rw [mem_entries.1 hn] at this
    cases this

/-! ## Related maps -/

/-- Two maps with the same keys in the same order, and values that `R` relates. -/
structure Related (R : α → β → Prop) (m : UMap κ α) (m' : UMap κ β) : Prop where
  keys : m.keys = m'.keys
  values : ∀ k v v', m.lookup k = some v → m'.lookup k = some v' → R v v'

/-- Two arrangements that put a new node in the same place, by the keys alone. -/
def Arrangement.SamePlaces (r : Arrangement κ α) (r' : Arrangement κ β) : Prop :=
  ∀ l l', l.keys = l'.keys → (r.order l).keys = (r'.order l').keys

variable {R : α → β → Prop} {m : UMap κ α} {m' : UMap κ β}

theorem related_empty : Related R (∅ : UMap κ α) (∅ : UMap κ β) where
  keys := rfl
  values k v v' h := by cases h

theorem Related.mem_iff (h : Related R m m') (k : κ) : k ∈ m ↔ k ∈ m' := by
  rw [AList.mem_keys, AList.mem_keys, h.keys]

theorem Related.mono {R' : α → β → Prop} (hR : ∀ v v', R v v' → R' v v') (h : Related R m m') :
    Related R' m m' := ⟨h.keys, fun k v v' hv hv' => hR v v' (h.values k v v' hv hv')⟩

theorem Related.get [Inhabited α] [Inhabited β] (h : Related R m m') (hd : R default default)
    (k : κ) :
    R (m.get k) (m'.get k) := by
  by_cases hk : k ∈ m
  · obtain ⟨v, hv⟩ := Option.isSome_iff_exists.1 (AList.lookup_isSome.2 hk)
    obtain ⟨v', hv'⟩ := Option.isSome_iff_exists.1 (AList.lookup_isSome.2 ((h.mem_iff k).1 hk))
    rw [UMap.get, UMap.get, hv, hv']
    exact h.values k v v' hv hv'
  · rw [UMap.get, UMap.get, AList.lookup_eq_none.2 hk,
      AList.lookup_eq_none.2 (mt (h.mem_iff k).2 hk)]
    exact hd

theorem keys_index_of_notMem [Inhabited α] {r : Arrangement κ α} {k : κ} (hk : k ∉ m) :
    (m.index r k).keys = (r.order (⟨k, default⟩ :: m.entries)).keys := by
  unfold index
  rw [dif_neg hk]
  rfl

/-- Related maps stay so where a node is made in both, if it comes to the same place. -/
theorem Related.index [Inhabited α] [Inhabited β] {r : Arrangement κ α} {r' : Arrangement κ β}
    {k : κ} (hkeys : k ∉ m → (m.index r k).keys = (m'.index r' k).keys) (hd : R default default)
    (h : Related R m m') : Related R (m.index r k) (m'.index r' k) where
  keys := by
    by_cases hk : k ∈ m
    · rw [index_of_mem hk, index_of_mem ((h.mem_iff k).1 hk), h.keys]
    · exact hkeys hk
  values k' v v' hv hv' := by
    rw [lookup_index] at hv hv'
    split_ifs at hv hv' with hk
    · cases hv
      cases hv'
      exact h.get hd k
    · exact h.values k' v v' hv hv'

theorem Related.index_samePlaces [Inhabited α] [Inhabited β] {r : Arrangement κ α}
    {r' : Arrangement κ β} (hr : r.SamePlaces r') (hd : R default default) (h : Related R m m')
    (k : κ) :
    Related R (m.index r k) (m'.index r' k) := by
  refine h.index (fun hk => ?_) hd
  rw [keys_index_of_notMem hk, keys_index_of_notMem (mt (h.mem_iff k).2 hk)]
  exact hr _ _ (congrArg (k :: ·) h.keys)

theorem Related.erase (h : Related R m m') (k : κ) : Related R (m.erase k) (m'.erase k) where
  keys := by rw [AList.keys_erase, AList.keys_erase, h.keys]
  values k' v v' hv hv' := by
    rw [lookup_erase] at hv hv'
    split_ifs at hv hv' with hk
    exact h.values k' v v' hv hv'

theorem Related.modify (h : Related R m m') (k : κ) {f : α → α} {f' : β → β}
    (hf : ∀ v v', R v v' → R (f v) (f' v')) : Related R (m.modify k f) (m'.modify k f') where
  keys := by
    have hk := h.keys
    unfold AList.keys at *
    rw [entries_modify, entries_modify, keys_modifyNodes, keys_modifyNodes, hk]
  values k' v v' hv hv' := by
    rw [lookup_modify] at hv hv'
    split_ifs at hv hv' with hk
    · obtain ⟨w, hw, rfl⟩ := Option.map_eq_some_iff.1 hv
      obtain ⟨w', hw', rfl⟩ := Option.map_eq_some_iff.1 hv'
      exact hf _ _ (h.values k w w' hw hw')
    · exact h.values k' v v' hv hv'

theorem Related.isEmpty_eq (h : Related R m m') : m.isEmpty = m'.isEmpty := by
  have hlen := congrArg List.length h.keys
  unfold AList.keys List.keys at hlen
  rw [List.length_map, List.length_map] at hlen
  rw [isEmpty, isEmpty, Bool.eq_iff_iff, List.isEmpty_iff, List.isEmpty_iff,
    ← List.length_eq_zero_iff,
    ← List.length_eq_zero_iff, hlen]

/-- The nodes of related maps match one by one. -/
theorem Related.forall₂ (h : Related R m m') :
    List.Forall₂ (fun n n' => n.1 = n'.1 ∧ R n.2 n'.2) m.entries m'.entries := by
  have key : ∀ (l : List (Σ _ : κ, α)) (l' : List (Σ _ : κ, β)), l.keys = l'.keys →
      (∀ k v v', ⟨k, v⟩ ∈ l → ⟨k, v'⟩ ∈ l' → R v v') →
      List.Forall₂ (fun n n' => n.1 = n'.1 ∧ R n.2 n'.2) l l' := by
    intro l
    induction l with
    | nil =>
      intro l' hk _
      rw [List.map_eq_nil_iff.1 hk.symm]
      exact .nil
    | cons n l ih =>
      intro l' hk hv
      obtain ⟨n', l', rfl, hn, hl⟩ := List.map_eq_cons_iff.1 hk.symm
      obtain ⟨k, v⟩ := n
      obtain ⟨k', v'⟩ := n'
      obtain rfl := hn
      refine .cons ⟨rfl, hv _ v v' List.mem_cons_self List.mem_cons_self⟩ (ih l' hl.symm ?_)
      intro k v v' h₁ h₂
      exact hv k v v' (List.mem_cons_of_mem _ h₁) (List.mem_cons_of_mem _ h₂)
  exact key _ _ h.keys fun k v v' hv hv' => h.values k v v' (mem_entries.1 hv) (mem_entries.1 hv')

end UMap
