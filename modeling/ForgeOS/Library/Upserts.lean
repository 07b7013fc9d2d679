import ForgeOS.Library.Firsts

/-!
Records of a list that are found by their keys, changed in place, and added
where there are none. After any changes there is one record for each key, in
the order of the first change of each, and it is what the changes of its key
make of a new one.
-/

namespace Library

section Upserts

variable {ι κ ρ : Type} [DecidableEq κ] (keyOf : ρ → κ)

/-- Change the first record of the key, or add one. -/
def upsert (key : κ) (new : ρ) (change : ρ → ρ) : List ρ → List ρ
  | [] => [change new]
  | record :: rest =>
      if keyOf record = key then change record :: rest else record :: upsert key new change rest

variable (key : ι → κ) (new : ι → ρ) (change : ι → ρ → ρ)

/-- What the items of a key make of a new record. -/
def gathered (items : List ι) (first : ι) : ρ :=
  (items.filter fun item => key item = key first).foldl (fun record item => change item record)
    (new first)

/-- The records after some items. -/
def upserts (items : List ι) : List ρ :=
  items.foldl (fun records item => upsert keyOf (key item) (new item) (change item) records) []

variable {keyOf key new change}

theorem upsert_of_not_mem {k : κ} {records : List ρ} (h : k ∉ records.map keyOf) (record : ρ)
    (f : ρ → ρ) : upsert keyOf k record f records = records ++ [f record] := by
  induction records with
  | nil => rfl
  | cons other rest ih =>
      rw [List.map_cons, List.mem_cons, not_or] at h
      rw [upsert, if_neg (Ne.symm h.1), ih h.2, List.cons_append]

/-- Where keys are distinct, the record of the key is changed and no other. -/
theorem upsert_of_mem {k : κ} {records : List ρ} (hkeys : (records.map keyOf).Nodup)
    (h : k ∈ records.map keyOf) (record : ρ) (f : ρ → ρ) :
    upsert keyOf k record f records =
      records.map fun other => if keyOf other = k then f other else other := by
  induction records with
  | nil => cases h
  | cons other rest ih =>
      rw [List.map_cons, List.nodup_cons] at hkeys
      rw [List.map_cons, List.mem_cons] at h
      rw [upsert, List.map_cons]
      split
      · rename_i hother
        have hrest : (rest.map fun other => if keyOf other = k then f other else other) = rest := by
          refine (List.map_congr_left fun later hlater => if_neg ?_).trans (List.map_id rest)
          intro hkey
          exact hkeys.1 (List.mem_map.mpr ⟨later, hlater, hkey.trans hother.symm⟩)
        rw [hrest]
      · rename_i hother
        rw [ih hkeys.2 (h.resolve_left fun heq => hother heq.symm)]

theorem gathered_snoc_of_eq {items : List ι} {item first : ι} (h : key item = key first) :
    gathered key new change (items ++ [item]) first =
      change item (gathered key new change items first) := by
  rw [gathered, List.filter_append, List.filter_singleton, decide_eq_true h, cond_true,
    List.foldl_concat, gathered]

theorem gathered_snoc_of_ne {items : List ι} {item first : ι} (h : key item ≠ key first) :
    gathered key new change (items ++ [item]) first = gathered key new change items first := by
  rw [gathered, List.filter_append, List.filter_singleton, decide_eq_false h, cond_false,
    List.append_nil, gathered]

theorem gathered_of_not_mem {items : List ι} {first : ι} (h : key first ∉ items.map key) :
    gathered key new change items first = new first := by
  have hnone : (items.filter fun item => key item = key first) = [] := by
    refine List.filter_eq_nil_iff.mpr fun item hitem heq => h ?_
    exact List.mem_map.mpr ⟨item, hitem, of_decide_eq_true heq⟩
  rw [gathered, hnone, List.foldl_nil]

variable (hnew : ∀ item, keyOf (new item) = key item)
  (hchange : ∀ item record, keyOf (change item record) = keyOf record)

include hnew hchange

theorem keyOf_gathered (items : List ι) (first : ι) :
    keyOf (gathered key new change items first) = key first := by
  rw [gathered]
  induction items.filter fun item => key item = key first using List.reverseRecOn with
  | nil => exact hnew first
  | append_singleton before item ih => rw [List.foldl_concat, hchange, ih]

/-- One record for each key, in the order of the first items. -/
theorem upserts_eq (items : List ι) :
    upserts keyOf key new change items =
      (firsts key items).map (gathered key new change items) := by
  have hkeys : ∀ items : List ι, ((firsts key items).map (gathered key new change items)).map
      keyOf = (firsts key items).map key := by
    intro items
    rw [List.map_map]
    exact List.map_congr_left fun first _ => keyOf_gathered hnew hchange items first
  induction items using List.reverseRecOn with
  | nil => rfl
  | append_singleton items item ih =>
      rw [upserts, List.foldl_concat, ← upserts, ih]
      by_cases hknown : key item ∈ items.map key
      · have hmem : key item ∈
            ((firsts key items).map (gathered key new change items)).map keyOf := by
          rw [hkeys]
          exact mem_keys_firsts.mpr hknown
        have hnodup :
            (((firsts key items).map (gathered key new change items)).map keyOf).Nodup := by
          rw [hkeys]
          exact nodup_keys_firstsFrom [] items
        rw [upsert_of_mem hnodup hmem, firsts_snoc_of_mem hknown, List.map_map]
        refine List.map_congr_left fun first _ => ?_
        rw [Function.comp_apply, keyOf_gathered hnew hchange]
        by_cases hsame : key first = key item
        · rw [if_pos hsame, gathered_snoc_of_eq hsame.symm]
        · rw [if_neg hsame, gathered_snoc_of_ne (Ne.symm hsame)]
      · have hfresh : key item ∉
            ((firsts key items).map (gathered key new change items)).map keyOf := by
          rw [hkeys]
          exact fun hmem => hknown (mem_keys_firsts.mp hmem)
        rw [upsert_of_not_mem hfresh, firsts_snoc_of_not_mem hknown, List.map_append,
          List.map_singleton, gathered_snoc_of_eq rfl, gathered_of_not_mem hknown]
        refine congrArg (· ++ _) (List.map_congr_left fun first hfirst => ?_)
        refine (gathered_snoc_of_ne fun heq => hknown ?_).symm
        rw [heq]
        exact mem_keys_firsts.mp (List.mem_map_of_mem hfirst)

end Upserts

end Library
