import Mathlib.Data.List.Basic

/-!
Insertion-ordered dictionaries, as association lists. Assigning to a key that
is present keeps its place; a new key goes to the end. Two dictionaries are
the same when they answer every lookup alike: the order of the keys is no part
of their value.
-/

namespace Library

/-- A dictionary from `κ` to `α` in insertion order. -/
abbrev Dict (κ α : Type) := List (κ × α)

namespace Dict

variable {κ α : Type} [DecidableEq κ]

/-- The value stored under a key. -/
def get? (d : Dict κ α) (key : κ) : Option α :=
  match d with
  | [] => none
  | entry :: rest => if entry.1 = key then some entry.2 else get? rest key

/-- Assignment to one key. -/
def set (d : Dict κ α) (key : κ) (value : α) : Dict κ α :=
  match d with
  | [] => [(key, value)]
  | entry :: rest =>
      if entry.1 = key then (key, value) :: rest else entry :: set rest key value

/-- Assignment of every entry of `other`, in order. -/
def update (d other : Dict κ α) : Dict κ α :=
  other.foldl (fun acc entry => acc.set entry.1 entry.2) d

/-- Equality of dictionaries. -/
def Same (d e : Dict κ α) : Prop := ∀ key, d.get? key = e.get? key

@[simp]
theorem get?_nil (key : κ) : get? ([] : Dict κ α) key = none := rfl

theorem get?_cons (entry : κ × α) (rest : Dict κ α) (key : κ) :
    get? (entry :: rest) key = if entry.1 = key then some entry.2 else get? rest key := rfl

theorem Same.refl (d : Dict κ α) : Same d d := fun _ => rfl

theorem Same.symm {d e : Dict κ α} (h : Same d e) : Same e d := fun key => (h key).symm

theorem Same.trans {d e f : Dict κ α} (h : Same d e) (h' : Same e f) : Same d f :=
  fun key => (h key).trans (h' key)

theorem get?_set (d : Dict κ α) (key other : κ) (value : α) :
    (d.set key value).get? other = if key = other then some value else d.get? other := by
  induction d with
  | nil => rfl
  | cons entry rest ih =>
      by_cases hkey : entry.1 = key
      · simp only [set, hkey, if_true, get?_cons]
        split <;> rfl
      · simp only [set, hkey, if_false, get?_cons, ih]
        by_cases hother : entry.1 = other
        · have hne : key ≠ other := fun h => hkey (hother.trans h.symm)
          simp only [hother, if_true, hne, if_false]
        · simp only [hother, if_false]

theorem get?_eq_none {d : Dict κ α} {key : κ} (h : key ∉ d.map Prod.fst) :
    d.get? key = none := by
  induction d with
  | nil => rfl
  | cons entry rest ih =>
      simp only [List.map_cons, List.mem_cons, not_or] at h
      rw [get?_cons, if_neg (fun heq => h.1 heq.symm), ih h.2]

theorem get?_isSome_of_mem {d : Dict κ α} {key : κ} (h : key ∈ d.map Prod.fst) :
    (d.get? key).isSome := by
  induction d with
  | nil => simp at h
  | cons entry rest ih =>
      rw [get?_cons]
      split
      · rfl
      · rename_i hne
        simp only [List.map_cons, List.mem_cons] at h
        exact ih (h.resolve_left (fun heq => hne heq.symm))

theorem get?_isSome_iff {d : Dict κ α} {key : κ} : (d.get? key).isSome ↔ key ∈ d.map Prod.fst := by
  refine ⟨fun hsome => ?_, get?_isSome_of_mem⟩
  by_contra hmissing
  rw [get?_eq_none hmissing] at hsome
  cases hsome

/-- A dictionary made of a list answers with the first item of a key. -/
theorem get?_map {ι : Type} (items : List ι) (keyOf : ι → κ) (valueOf : ι → α) (key : κ) :
    get? (items.map fun item => (keyOf item, valueOf item)) key =
      (items.find? fun item => keyOf item = key).map valueOf := by
  induction items with
  | nil => rfl
  | cons item rest ih =>
      rw [List.map_cons, get?_cons, ih, List.find?_cons]
      by_cases hkey : keyOf item = key
      · simp [hkey]
      · simp [hkey]

/-- What is done to every value of a dictionary is done to the one looked up. -/
theorem get?_mapValues {β : Type} (d : Dict κ α) (f : α → β) (key : κ) :
    get? (d.map fun entry => (entry.1, f entry.2)) key = (d.get? key).map f := by
  induction d with
  | nil => rfl
  | cons entry rest ih =>
      rw [List.map_cons, get?_cons, get?_cons, ih]
      split <;> rfl

theorem set_mapValues {β : Type} (d : Dict κ α) (f : α → β) (key : κ) (value : α) :
    set (d.map fun entry => (entry.1, f entry.2)) key (f value) =
      (d.set key value).map fun entry => (entry.1, f entry.2) := by
  induction d with
  | nil => rfl
  | cons entry rest ih =>
      rw [List.map_cons, set, set, ih]
      split <;> rfl

theorem get?_append (d e : Dict κ α) (key : κ) :
    get? (d ++ e) key = (d.get? key).or (e.get? key) := by
  induction d with
  | nil => rfl
  | cons entry rest ih =>
      rw [List.cons_append, get?_cons, get?_cons, ih]
      split
      · rfl
      · rfl

/-- Of several assignments to one key the last one counts. -/
theorem get?_update_reverse (d other : Dict κ α) (key : κ) :
    (d.update other).get? key = (get? other.reverse key).or (d.get? key) := by
  induction other generalizing d with
  | nil => rfl
  | cons entry rest ih =>
      change (Dict.update (d.set entry.1 entry.2) rest).get? key = _
      rw [ih, get?_set, List.reverse_cons, get?_append, Option.or_assoc]
      by_cases hkey : entry.1 = key
      · simp [get?_cons, hkey]
      · simp [get?_cons, hkey]

/-- Looking a key up after an update: the new dictionary answers first. -/
theorem get?_update {other : Dict κ α} (hkeys : (other.map Prod.fst).Nodup)
    (d : Dict κ α) (key : κ) :
    (d.update other).get? key = (other.get? key).or (d.get? key) := by
  induction other generalizing d with
  | nil => rfl
  | cons entry rest ih =>
      simp only [List.map_cons, List.nodup_cons] at hkeys
      change (Dict.update (d.set entry.1 entry.2) rest).get? key = _
      rw [ih hkeys.2, get?_set, get?_cons]
      by_cases heq : entry.1 = key
      · have hnone : get? rest key = none := get?_eq_none (heq ▸ hkeys.1)
        simp [hnone, heq]
      · simp only [heq, if_false]

/-- An update that names every key of the old dictionary replaces it. -/
theorem update_same {d other : Dict κ α} (hkeys : (other.map Prod.fst).Nodup)
    (hcover : ∀ key ∈ d.map Prod.fst, key ∈ other.map Prod.fst) :
    Same (d.update other) other := by
  intro key
  rw [get?_update hkeys]
  by_cases hkey : key ∈ other.map Prod.fst
  · obtain ⟨value, hvalue⟩ := Option.isSome_iff_exists.mp (get?_isSome_of_mem hkey)
    rw [hvalue, Option.some_or]
  · have hold : key ∉ d.map Prod.fst := fun h => hkey (hcover key h)
    rw [get?_eq_none hkey, get?_eq_none hold, Option.none_or]

/-- The entry a key is looked up at. -/
theorem split_of_get? {d : Dict κ α} {key : κ} {value : α} (h : d.get? key = some value) :
    ∃ before rest, d = before ++ (key, value) :: rest ∧ key ∉ before.map Prod.fst := by
  induction d with
  | nil => cases h
  | cons entry rest ih =>
      rw [get?_cons] at h
      by_cases hkey : entry.1 = key
      · rw [if_pos hkey, Option.some.injEq] at h
        refine ⟨[], rest, ?_, by simp⟩
        rw [← hkey, ← h, List.nil_append]
      · rw [if_neg hkey] at h
        obtain ⟨before, after, hsplit, hfresh⟩ := ih h
        refine ⟨entry :: before, after, by rw [hsplit, List.cons_append], ?_⟩
        simp only [List.map_cons, List.mem_cons, not_or]
        exact ⟨fun heq => hkey heq.symm, hfresh⟩

/-- The last entry of a key, which is what a dictionary built from a list of
assignments holds under it. -/
theorem split_of_get?_update {other : Dict κ α} {key : κ} {value : α}
    (h : (update [] other).get? key = some value) :
    ∃ before rest, other = before ++ (key, value) :: rest ∧ key ∉ rest.map Prod.fst := by
  rw [get?_update_reverse, get?_nil, Option.or_none] at h
  obtain ⟨before, rest, hsplit, hfresh⟩ := split_of_get? h
  refine ⟨rest.reverse, before.reverse, ?_, by simpa using hfresh⟩
  rw [← List.reverse_reverse other, hsplit]
  simp

theorem get?_of_split {d before rest : Dict κ α} {key : κ} {value : α}
    (h : d = before ++ (key, value) :: rest) (hfresh : key ∉ before.map Prod.fst) :
    d.get? key = some value := by
  induction before generalizing d with
  | nil => rw [h, List.nil_append, get?_cons, if_pos rfl]
  | cons entry before ih =>
      simp only [List.map_cons, List.mem_cons, not_or] at hfresh
      rw [h, List.cons_append, get?_cons, if_neg fun heq => hfresh.1 heq.symm]
      exact ih rfl hfresh.2

/-- Assignment in place, at any split whose first part lacks the key. -/
theorem set_of_split {d before rest : Dict κ α} {key : κ} {value : α}
    (h : d = before ++ (key, value) :: rest) (hfresh : key ∉ before.map Prod.fst) (other : α) :
    d.set key other = before ++ (key, other) :: rest := by
  induction before generalizing d with
  | nil => rw [h, List.nil_append, set, if_pos rfl, List.nil_append]
  | cons entry before ih =>
      simp only [List.map_cons, List.mem_cons, not_or] at hfresh
      rw [h, List.cons_append, set, if_neg fun heq => hfresh.1 heq.symm, ih rfl hfresh.2,
        List.cons_append]

omit [DecidableEq κ] in
/-- A dictionary splits at the first entry of a key in one way only. -/
theorem split_unique {before before' rest rest' : Dict κ α} {key : κ} {value value' : α}
    (h : before ++ (key, value) :: rest = before' ++ (key, value') :: rest')
    (hfresh : key ∉ before.map Prod.fst) (hfresh' : key ∉ before'.map Prod.fst) :
    before = before' ∧ value = value' := by
  induction before generalizing before' with
  | nil =>
      cases before' with
      | nil =>
          simp only [List.nil_append, List.cons.injEq, Prod.mk.injEq, true_and] at h
          exact ⟨rfl, h.1⟩
      | cons entry' before' =>
          simp only [List.nil_append, List.cons_append, List.cons.injEq] at h
          exact absurd (by simp [← h.1]) hfresh'
  | cons entry before ih =>
      cases before' with
      | nil =>
          simp only [List.nil_append, List.cons_append, List.cons.injEq] at h
          exact absurd (by simp [h.1]) hfresh
      | cons entry' before' =>
          simp only [List.cons_append, List.cons.injEq] at h
          simp only [List.map_cons, List.mem_cons, not_or] at hfresh hfresh'
          obtain ⟨hbefore, hvalue⟩ := ih h.2 hfresh.2 hfresh'.2
          exact ⟨by rw [h.1, hbefore], hvalue⟩

theorem mem_of_get? {d : Dict κ α} {key : κ} {value : α} (h : d.get? key = some value) :
    (key, value) ∈ d := by
  obtain ⟨before, rest, hsplit, -⟩ := split_of_get? h
  rw [hsplit]
  simp

/-- Without repeated keys, an entry is what its key is looked up as. -/
theorem get?_of_mem {d : Dict κ α} (hkeys : (d.map Prod.fst).Nodup) {key : κ} {value : α}
    (h : (key, value) ∈ d) : d.get? key = some value := by
  obtain ⟨before, rest, hsplit⟩ := List.append_of_mem h
  apply get?_of_split hsplit
  intro hmember
  rw [hsplit, List.map_append, List.nodup_append] at hkeys
  exact hkeys.2.2 key hmember key (by simp) rfl

/-- Without repeated keys the order of the entries does not matter. -/
theorem get?_perm {d e : Dict κ α} (hkeys : (d.map Prod.fst).Nodup) (hperm : d.Perm e) :
    Same d e := by
  have hkeys' : (e.map Prod.fst).Nodup := (hperm.map Prod.fst).nodup_iff.mp hkeys
  intro key
  ext value
  constructor
  · exact fun h => get?_of_mem hkeys' (hperm.mem_iff.mp (mem_of_get? h))
  · exact fun h => get?_of_mem hkeys (hperm.mem_iff.mpr (mem_of_get? h))

theorem keys_set_of_get? {d : Dict κ α} {key : κ} {value : α} (h : d.get? key = some value)
    (other : α) : (d.set key other).map Prod.fst = d.map Prod.fst := by
  obtain ⟨before, rest, hsplit, hfresh⟩ := split_of_get? h
  rw [set_of_split hsplit hfresh, hsplit]
  simp only [List.map_append, List.map_cons]

theorem mem_set {d : Dict κ α} {key : κ} {value : α} {entry : κ × α}
    (h : entry ∈ d.set key value) : entry = (key, value) ∨ entry ∈ d := by
  induction d with
  | nil => exact Or.inl (by simpa [set] using h)
  | cons head rest ih =>
      by_cases hkey : head.1 = key
      · simp only [set, hkey, if_true, List.mem_cons] at h ⊢
        exact h.imp_right Or.inr
      · simp only [set, hkey, if_false, List.mem_cons] at h ⊢
        rcases h with hhead | htail
        · exact Or.inr (Or.inl hhead)
        · exact (ih htail).imp_right Or.inr

theorem mem_update {d other : Dict κ α} {entry : κ × α} (h : entry ∈ d.update other) :
    entry ∈ d ∨ entry ∈ other := by
  induction other generalizing d with
  | nil => exact Or.inl h
  | cons head rest ih =>
      have hmore : entry ∈ (d.set head.1 head.2).update rest := h
      rcases ih hmore with hset | hrest
      · rcases mem_set hset with rfl | hd
        · exact Or.inr List.mem_cons_self
        · exact Or.inl hd
      · exact Or.inr (List.mem_cons_of_mem _ hrest)

/-- A new key goes to the end. -/
theorem set_of_not_mem {d : Dict κ α} {key : κ} (h : key ∉ d.map Prod.fst) (value : α) :
    d.set key value = d ++ [(key, value)] := by
  induction d with
  | nil => rfl
  | cons entry rest ih =>
      rw [List.map_cons, List.mem_cons, not_or] at h
      rw [set, if_neg (Ne.symm h.1), ih h.2, List.cons_append]

/-- A key that is present keeps its place. -/
theorem set_of_mem {d : Dict κ α} (hkeys : (d.map Prod.fst).Nodup) {key : κ}
    (h : key ∈ d.map Prod.fst) (value : α) :
    d.set key value = d.map fun entry => if entry.1 = key then (key, value) else entry := by
  induction d with
  | nil => cases h
  | cons entry rest ih =>
      rw [List.map_cons, List.nodup_cons] at hkeys
      rw [List.map_cons, List.mem_cons] at h
      rw [set, List.map_cons]
      split
      · rename_i hentry
        have hrest :
            (rest.map fun other => if other.1 = key then (key, value) else other) = rest := by
          refine (List.map_congr_left fun other hother => if_neg ?_).trans (List.map_id rest)
          exact fun hsame => hkeys.1 (List.mem_map.mpr ⟨other, hother, hsame.trans hentry.symm⟩)
        rw [hrest]
      · rename_i hentry
        rw [ih hkeys.2 (h.resolve_left fun heq => hentry heq.symm)]

/-- Entries under new keys are appended in their order. -/
theorem update_of_fresh {d other : Dict κ α} (hkeys : (other.map Prod.fst).Nodup)
    (hfresh : ∀ key ∈ other.map Prod.fst, key ∉ d.map Prod.fst) : d.update other = d ++ other := by
  induction other generalizing d with
  | nil => rw [List.append_nil]; rfl
  | cons entry rest ih =>
      rw [List.map_cons, List.nodup_cons] at hkeys
      rw [List.map_cons, List.forall_mem_cons] at hfresh
      change (d.set entry.1 entry.2).update rest = _
      rw [set_of_not_mem hfresh.1, ih hkeys.2, List.append_assoc]
      · rfl
      · intro key hkey hmem
        rw [List.map_append, List.mem_append] at hmem
        rcases hmem with hold | hnew
        · exact hfresh.2 key hkey hold
        · obtain rfl : key = entry.1 := List.mem_singleton.mp hnew
          exact hkeys.1 hkey

theorem update_of_nodup {d other : Dict κ α} (h : ((d ++ other).map Prod.fst).Nodup) :
    d.update other = d ++ other := by
  rw [List.map_append, List.nodup_append] at h
  exact update_of_fresh h.2.1 fun key hkey hmem => h.2.2 key hmem key hkey rfl

theorem keys_set (d : Dict κ α) (key : κ) (value : α) :
    ∀ k ∈ (d.set key value).map Prod.fst, k = key ∨ k ∈ d.map Prod.fst := by
  induction d with
  | nil => intro k hk; exact Or.inl (by simpa [set] using hk)
  | cons entry rest ih =>
      intro k hk
      by_cases hkey : entry.1 = key
      · simp only [set, hkey, if_true, List.map_cons, List.mem_cons] at hk ⊢
        exact hk.imp_right Or.inr
      · simp only [set, hkey, if_false, List.map_cons, List.mem_cons] at hk ⊢
        rcases hk with hhead | htail
        · exact Or.inr (Or.inl hhead)
        · exact (ih k htail).imp_right Or.inr

theorem nodup_keys_set {d : Dict κ α} (h : (d.map Prod.fst).Nodup) (key : κ) (value : α) :
    ((d.set key value).map Prod.fst).Nodup := by
  induction d with
  | nil => simp [set]
  | cons entry rest ih =>
      rw [List.map_cons, List.nodup_cons] at h
      unfold set
      split
      · rename_i hkey
        rw [List.map_cons, List.nodup_cons, ← hkey]
        exact h
      · rename_i hkey
        rw [List.map_cons, List.nodup_cons]
        refine ⟨?_, ih h.2⟩
        intro hmember
        rcases keys_set rest key value _ hmember with heq | hold
        · exact hkey heq
        · exact h.1 hold

theorem nodup_keys_update {d : Dict κ α} (h : (d.map Prod.fst).Nodup) (other : Dict κ α) :
    ((d.update other).map Prod.fst).Nodup := by
  induction other generalizing d with
  | nil => exact h
  | cons entry rest ih => exact ih (nodup_keys_set h entry.1 entry.2)

theorem keys_update (d other : Dict κ α) :
    ∀ k ∈ (d.update other).map Prod.fst, k ∈ d.map Prod.fst ∨ k ∈ other.map Prod.fst := by
  induction other generalizing d with
  | nil => intro k hk; exact Or.inl hk
  | cons entry rest ih =>
      intro k hk
      rcases ih (d.set entry.1 entry.2) k hk with hset | hrest
      · rcases keys_set d entry.1 entry.2 k hset with hentry | hd
        · exact Or.inr (by simp [hentry])
        · exact Or.inl hd
      · exact Or.inr (by simp only [List.map_cons, List.mem_cons]; exact Or.inr hrest)

end Dict

end Library
