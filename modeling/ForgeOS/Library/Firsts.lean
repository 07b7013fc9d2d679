import Mathlib.Data.Finset.Card

/-!
The first items of a list for each key, in the order in which the keys appear.
Some items of a list may get lost; the file tells when the first ones are still
the same.
-/

namespace Library

section Firsts

variable {α κ : Type} [DecidableEq κ] (key : α → κ)

/-- The items whose keys have not been seen before them. -/
def firstsFrom (seen : List κ) : List α → List α
  | [] => []
  | x :: rest =>
      if key x ∈ seen then firstsFrom seen rest else x :: firstsFrom (key x :: seen) rest

def firsts (items : List α) : List α := firstsFrom key [] items

/-- The items of another list that are not there yet, put behind. -/
def appendNew (known items : List κ) : List κ :=
  items.foldl (fun known item => if item ∈ known then known else known ++ [item]) known

/-- What is left of the items that are marked. -/
def kept (entries : List (Bool × α)) : List α :=
  entries.filterMap fun entry => if entry.1 then some entry.2 else none

/-- For each first item an equal one is kept, and everything kept in front of
that one has a key from before the first item. -/
def KeepsFirsts (entries : List (Bool × α)) : Prop :=
  ∀ before mark x after, entries = before ++ (mark, x) :: after →
    (∀ entry ∈ before, key entry.2 ≠ key x) →
    ∃ before' after', entries = before' ++ (true, x) :: after' ∧
      ∀ entry ∈ before', entry.1 = true → key entry.2 ∈ before.map fun earlier => key earlier.2

variable {key}

theorem mem_keys_firstsFrom {seen : List κ} {items : List α} {k : κ} :
    k ∈ (firstsFrom key seen items).map key ↔ k ∈ items.map key ∧ k ∉ seen := by
  induction items generalizing seen with
  | nil => simp [firstsFrom]
  | cons x rest ih =>
      rw [firstsFrom]
      split
      · rename_i hseen
        rw [ih, List.map_cons, List.mem_cons]
        constructor
        · exact fun h => ⟨Or.inr h.1, h.2⟩
        · rintro ⟨rfl | hrest, hnew⟩
          · exact absurd hseen hnew
          · exact ⟨hrest, hnew⟩
      · rename_i hnew
        rw [List.map_cons, List.map_cons, List.mem_cons, List.mem_cons, ih, List.mem_cons, not_or]
        constructor
        · rintro (rfl | ⟨hrest, -, hk⟩)
          · exact ⟨Or.inl rfl, hnew⟩
          · exact ⟨Or.inr hrest, hk⟩
        · rintro ⟨hk | hrest, hnot⟩
          · exact Or.inl hk
          · exact or_iff_not_imp_left.mpr fun hne => ⟨hrest, hne, hnot⟩

/-- Nothing is new where every key has been seen. -/
theorem firstsFrom_eq_nil {seen : List κ} {items : List α} (h : ∀ x ∈ items, key x ∈ seen) :
    firstsFrom key seen items = [] := by
  induction items with
  | nil => rfl
  | cons x rest ih =>
      rw [List.forall_mem_cons] at h
      rw [firstsFrom, if_pos h.1, ih h.2]

theorem firstsFrom_sublist (seen : List κ) (items : List α) :
    (firstsFrom key seen items).Sublist items := by
  induction items generalizing seen with
  | nil => exact .slnil
  | cons x rest ih =>
      rw [firstsFrom]
      split
      · exact (ih seen).cons x
      · exact (ih (key x :: seen)).cons_cons x

theorem nodup_keys_firstsFrom (seen : List κ) (items : List α) :
    ((firstsFrom key seen items).map key).Nodup := by
  induction items generalizing seen with
  | nil => exact List.nodup_nil
  | cons x rest ih =>
      rw [firstsFrom]
      split
      · exact ih seen
      · rw [List.map_cons, List.nodup_cons, mem_keys_firstsFrom]
        exact ⟨fun h => h.2 List.mem_cons_self, ih (key x :: seen)⟩

/-- An item at the end is a first one unless its key has been seen. -/
theorem firstsFrom_snoc (seen : List κ) (items : List α) (x : α) :
    firstsFrom key seen (items ++ [x]) =
      firstsFrom key seen items ++ if key x ∈ seen ∨ key x ∈ items.map key then [] else [x] := by
  induction items generalizing seen with
  | nil =>
      by_cases hseen : key x ∈ seen
      · simp [firstsFrom, hseen]
      · simp [firstsFrom, hseen]
  | cons y rest ih =>
      rw [List.cons_append, firstsFrom, firstsFrom]
      by_cases hseen : key y ∈ seen
      · have hsame : key x ∈ seen ∨ key x ∈ (y :: rest).map key ↔
            key x ∈ seen ∨ key x ∈ rest.map key := by
          rw [List.map_cons, List.mem_cons]
          constructor
          · rintro (h | h | h)
            · exact Or.inl h
            · exact Or.inl (h ▸ hseen)
            · exact Or.inr h
          · exact fun h => h.imp_right Or.inr
        rw [if_pos hseen, if_pos hseen, ih, if_congr hsame rfl rfl]
      · have hsame : key x ∈ seen ∨ key x ∈ (y :: rest).map key ↔
            key x ∈ key y :: seen ∨ key x ∈ rest.map key := by
          rw [List.map_cons, List.mem_cons, List.mem_cons]
          tauto
        rw [if_neg hseen, if_neg hseen, ih, List.cons_append, if_congr hsame rfl rfl]

theorem firsts_snoc_of_mem {items : List α} {x : α} (h : key x ∈ items.map key) :
    firsts key (items ++ [x]) = firsts key items := by
  rw [firsts, firstsFrom_snoc, if_pos (Or.inr h), List.append_nil, firsts]

theorem firsts_snoc_of_not_mem {items : List α} {x : α} (h : key x ∉ items.map key) :
    firsts key (items ++ [x]) = firsts key items ++ [x] := by
  rw [firsts, firstsFrom_snoc, if_neg (not_or.mpr ⟨List.not_mem_nil, h⟩), firsts]

theorem mem_keys_firsts {items : List α} {k : κ} :
    k ∈ (firsts key items).map key ↔ k ∈ items.map key := by
  rw [firsts, mem_keys_firstsFrom, and_iff_left List.not_mem_nil]

theorem appendNew_firsts (earlier items : List κ) :
    appendNew (firsts id earlier) items = firsts id (earlier ++ items) := by
  induction items using List.reverseRecOn with
  | nil => rw [appendNew, List.foldl_nil, List.append_nil]
  | append_singleton items item ih =>
      have hmem : item ∈ firsts id (earlier ++ items) ↔ id item ∈ (earlier ++ items).map id := by
        rw [← mem_keys_firsts, List.map_id]
        rfl
      rw [appendNew, List.foldl_concat, ← appendNew, ih, ← List.append_assoc]
      split
      · rename_i hknown
        rw [firsts_snoc_of_mem (hmem.mp hknown)]
      · rename_i hnew
        rw [firsts_snoc_of_not_mem (mt hmem.mpr hnew)]

/-- There are as many first items as items that differ. -/
theorem length_firsts (items : List κ) : (firsts id items).length = items.toFinset.card := by
  have hnodup : ((firsts id items).map id).Nodup := nodup_keys_firstsFrom [] items
  rw [List.map_id] at hnodup
  have hsame : (firsts id items).toFinset = items.toFinset := by
    ext item
    have hmem : item ∈ (firsts id items).map id ↔ item ∈ items.map id := mem_keys_firsts
    rwa [List.map_id, List.map_id, ← List.mem_toFinset, ← List.mem_toFinset] at hmem
  rw [← hsame, List.toFinset_card_of_nodup hnodup]

theorem firstsFrom_split {seen : List κ} {items front : List α} {x : α} :
    (∃ behind, firstsFrom key seen items = front ++ x :: behind) ↔
      ∃ before after, items = before ++ x :: after ∧ key x ∉ seen ∧
        (∀ y ∈ before, key y ≠ key x) ∧ front = firstsFrom key seen before := by
  induction items generalizing seen front with
  | nil => simp [firstsFrom]
  | cons y rest ih =>
      rw [firstsFrom]
      split
      · rename_i hseen
        rw [ih]
        constructor
        · rintro ⟨before, after, rfl, hnew, hbefore, rfl⟩
          refine ⟨y :: before, after, rfl, hnew, ?_, by rw [firstsFrom, if_pos hseen]⟩
          intro z hz
          rcases List.mem_cons.mp hz with rfl | hz
          · exact fun heq => hnew (heq ▸ hseen)
          · exact hbefore z hz
        · rintro ⟨before, after, hsplit, hnew, hbefore, rfl⟩
          cases before with
          | nil =>
              obtain ⟨rfl, -⟩ := List.cons.inj hsplit
              exact absurd hseen hnew
          | cons first before =>
              obtain ⟨rfl, rfl⟩ := List.cons.inj hsplit
              exact ⟨before, after, rfl, hnew, fun z hz => hbefore z (List.mem_cons_of_mem _ hz),
                by rw [firstsFrom, if_pos hseen]⟩
      · rename_i hfresh
        constructor
        · rintro ⟨behind, hfirsts⟩
          cases front with
          | nil =>
              obtain ⟨rfl, -⟩ := List.cons.inj hfirsts
              exact ⟨[], rest, rfl, hfresh, List.forall_mem_nil _, rfl⟩
          | cons first front =>
              obtain ⟨rfl, hrest⟩ := List.cons.inj hfirsts
              obtain ⟨before, after, rfl, hnew, hbefore, rfl⟩ := ih.mp ⟨behind, hrest⟩
              rw [List.mem_cons, not_or] at hnew
              refine ⟨y :: before, after, rfl, hnew.2, ?_, by rw [firstsFrom, if_neg hfresh]⟩
              intro z hz
              rcases List.mem_cons.mp hz with rfl | hz
              · exact Ne.symm hnew.1
              · exact hbefore z hz
        · rintro ⟨before, after, hsplit, hnew, hbefore, rfl⟩
          cases before with
          | nil =>
              obtain ⟨rfl, rfl⟩ := List.cons.inj hsplit
              exact ⟨_, rfl⟩
          | cons first before =>
              obtain ⟨rfl, rfl⟩ := List.cons.inj hsplit
              have hne : key x ∉ key y :: seen := by
                rw [List.mem_cons, not_or]
                exact ⟨Ne.symm (hbefore y List.mem_cons_self), hnew⟩
              obtain ⟨behind, hbehind⟩ := ih.mpr ⟨before, after, rfl, hne,
                fun z hz => hbefore z (List.mem_cons_of_mem _ hz), rfl⟩
              exact ⟨behind, by rw [firstsFrom, if_neg hfresh, hbehind, List.cons_append]⟩

omit [DecidableEq κ] in
/-- Lists of distinct keys are equal when each item of one stands in the other
behind items that stand in front of it. -/
theorem eq_of_fronts {xs ys : List α} (hxs : (xs.map key).Nodup) (hys : (ys.map key).Nodup)
    (hsub : xs.map key ⊆ ys.map key)
    (h : ∀ front x behind, ys = front ++ x :: behind →
      ∃ front' behind', xs = front' ++ x :: behind' ∧ front'.map key ⊆ front.map key) :
    xs = ys := by
  induction ys generalizing xs with
  | nil => exact List.map_eq_nil_iff.mp (List.subset_nil.mp hsub)
  | cons y ys ih =>
      obtain ⟨front, rest, rfl, hfront⟩ := h [] y ys rfl
      obtain rfl := List.map_eq_nil_iff.mp (List.subset_nil.mp hfront)
      rw [List.nil_append] at *
      rw [List.map_cons, List.nodup_cons] at hxs hys
      refine congrArg (y :: ·) (ih hxs.2 hys.2 ?_ ?_)
      · intro k hk
        rcases List.mem_cons.mp (hsub (List.mem_cons_of_mem _ hk)) with rfl | hold
        · exact absurd hk hxs.1
        · exact hold
      · intro front x behind hsplit
        obtain ⟨front', behind', hrest, hsubset⟩ := h (y :: front) x behind (by rw [hsplit]; rfl)
        cases front' with
        | nil =>
            obtain ⟨rfl, -⟩ := List.cons.inj hrest
            refine absurd ?_ hys.1
            rw [hsplit]
            simp
        | cons first front' =>
            rw [List.cons_append] at hrest
            obtain ⟨rfl, rfl⟩ := List.cons.inj hrest
            refine ⟨front', behind', rfl, fun k hk => ?_⟩
            rcases List.mem_cons.mp (hsubset (List.mem_cons_of_mem _ hk)) with rfl | hold
            · refine absurd ?_ hxs.1
              rw [List.map_append]
              exact List.mem_append_left _ hk
            · exact hold

theorem kept_split {entries : List (Bool × α)} {front behind : List α} {x : α}
    (h : kept entries = front ++ x :: behind) :
    ∃ before after, entries = before ++ (true, x) :: after ∧ kept before = front := by
  obtain ⟨before, rest, rfl, rfl, hrest⟩ := List.filterMap_eq_append_iff.mp h
  obtain ⟨lost, entry, after, rfl, hlost, hentry, -⟩ := List.filterMap_eq_cons_iff.mp hrest
  obtain ⟨mark, item⟩ := entry
  cases mark with
  | false => cases hentry
  | true =>
      obtain rfl := Option.some.inj hentry
      refine ⟨before ++ lost, after, by simp, ?_⟩
      rw [kept, List.filterMap_append, List.filterMap_eq_nil_iff.mpr hlost, List.append_nil]

theorem mem_kept {entries : List (Bool × α)} {x : α} : x ∈ kept entries ↔ (true, x) ∈ entries := by
  rw [kept, List.mem_filterMap]
  constructor
  · rintro ⟨⟨mark, item⟩, hmem, hentry⟩
    cases mark with
    | false => cases hentry
    | true =>
        obtain rfl := Option.some.inj hentry
        exact hmem
  · exact fun hmem => ⟨(true, x), hmem, rfl⟩

theorem kept_append (xs ys : List (Bool × α)) : kept (xs ++ ys) = kept xs ++ kept ys :=
  List.filterMap_append

/-- The first items of what is kept are those of the list exactly when each of
them is kept in its place. -/
theorem firsts_kept_iff (entries : List (Bool × α)) :
    firsts key (kept entries) = firsts key (entries.map Prod.snd) ↔ KeepsFirsts key entries := by
  constructor
  · intro h before mark x after hentries hfirst
    have hall : ∃ behind, firsts key (entries.map Prod.snd) =
        firsts key (before.map Prod.snd) ++ x :: behind := by
      apply firstsFrom_split.mpr
      refine ⟨before.map Prod.snd, after.map Prod.snd, by simp [hentries], List.not_mem_nil, ?_,
        rfl⟩
      intro y hy
      obtain ⟨entry, hentry, rfl⟩ := List.mem_map.mp hy
      exact hfirst entry hentry
    rw [← h] at hall
    obtain ⟨front, rest, hsplit, -, -, hfront⟩ := firstsFrom_split.mp hall
    obtain ⟨before', after', hentries', rfl⟩ := kept_split hsplit
    refine ⟨before', after', hentries', fun entry hentry hkept => ?_⟩
    have hmem : entry.2 ∈ kept before' := mem_kept.mpr (by rwa [← hkept])
    have hkey : key entry.2 ∈ (firsts key (kept before')).map key :=
      mem_keys_firstsFrom.mpr ⟨List.mem_map_of_mem hmem, List.not_mem_nil⟩
    have hearlier : key entry.2 ∈ (firsts key (before.map Prod.snd)).map key := hfront ▸ hkey
    simpa using (mem_keys_firstsFrom.mp hearlier).1
  · intro h
    apply eq_of_fronts (nodup_keys_firstsFrom [] _) (nodup_keys_firstsFrom [] _)
    · intro k hk
      obtain ⟨x, hx, rfl⟩ := List.mem_map.mp (mem_keys_firstsFrom.mp hk).1
      have hmem : x ∈ entries.map Prod.snd := List.mem_map_of_mem (mem_kept.mp hx)
      exact mem_keys_firstsFrom.mpr ⟨List.mem_map_of_mem hmem, List.not_mem_nil⟩
    · intro front x behind hsplit
      obtain ⟨items, rest, hitems, -, hfirst, rfl⟩ := firstsFrom_split.mp ⟨behind, hsplit⟩
      obtain ⟨before, tail, rfl, rfl, htail⟩ := List.map_eq_append_iff.mp hitems
      obtain ⟨entry, after, rfl, rfl, rfl⟩ := List.map_eq_cons_iff.mp htail
      have hbefore : ∀ earlier ∈ before, key earlier.2 ≠ key entry.2 :=
        fun earlier hearlier => hfirst earlier.2 (List.mem_map_of_mem hearlier)
      obtain ⟨before', after', hentries, hkeys⟩ := h before entry.1 entry.2 after rfl hbefore
      have hfront : ∀ y ∈ kept before', key y ∈ before.map fun earlier => key earlier.2 :=
        fun y hy => hkeys (true, y) (mem_kept.mp hy) rfl
      have hnew : ∀ y ∈ kept before', key y ≠ key entry.2 := by
        intro y hy heq
        obtain ⟨earlier, hearlier, hkey⟩ := List.mem_map.mp (hfront y hy)
        exact hbefore earlier hearlier (hkey.trans heq)
      have hkept : kept (before ++ entry :: after) =
          kept before' ++ entry.2 :: kept after' := by
        rw [hentries, kept_append]
        rfl
      obtain ⟨behind', hbehind⟩ := firstsFrom_split.mpr
        ⟨kept before', kept after', hkept, List.not_mem_nil, hnew, rfl⟩
      refine ⟨_, behind', hbehind, fun k hk => ?_⟩
      obtain ⟨y, hy, rfl⟩ := List.mem_map.mp (mem_keys_firstsFrom.mp hk).1
      refine mem_keys_firstsFrom.mpr ⟨?_, List.not_mem_nil⟩
      simpa using hfront y hy

end Firsts

end Library
