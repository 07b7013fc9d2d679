import Mathlib.Data.List.DropRight
import Mathlib.Data.List.SplitBy

/-!
Logs that suppress repetitions and keep only so much. An entry with the key of
the last one is not entered, and only the newest entries are kept. Doing so
entry by entry comes to the same as collapsing the whole history first and
truncating it once.
-/

namespace Library

variable {α κ : Type} [DecidableEq κ] (key : α → κ)

/-- The first entry of each maximal run of neighbours with one key. -/
def collapse (xs : List α) : List α :=
  (xs.splitBy fun a b => key a = key b).filterMap List.head?

/-- One entry, in a log that keeps `cap`. -/
def retain (cap : Nat) (kept : List α) (x : α) : List α :=
  if kept.getLast?.map key = some (key x) then kept else (kept ++ [x]).rtake cap

@[simp]
theorem collapse_nil : collapse key [] = [] := rfl

/-- An entry with another key than the last one is a new run. -/
theorem collapse_snoc_of_ne {xs : List α} {x : α} (h : xs.getLast?.map key ≠ some (key x)) :
    collapse key (xs ++ [x]) = collapse key xs ++ [x] := by
  have hsplit := List.splitBy_append (r := fun a b => decide (key a = key b))
    (l := xs) (m := [x]) (by
      intro last hlast head hhead
      obtain rfl : x = head := by simpa using hhead
      rw [decide_eq_false_iff_not]
      intro hsame
      exact h (by rw [Option.mem_def.mp hlast, Option.map_some, hsame]))
  unfold collapse
  rw [hsplit, List.filterMap_append]
  rfl

/-- An entry with the key of the last one belongs to its run. -/
theorem collapse_snoc_of_eq {xs : List α} {x : α} (h : xs.getLast?.map key = some (key x)) :
    collapse key (xs ++ [x]) = collapse key xs := by
  rcases (xs.splitBy fun a b => key a = key b).eq_nil_or_concat with
    hnil | ⟨earlier, last, hsplit⟩
  · rw [List.splitBy_eq_nil.mp hnil] at h
    cases h
  rw [List.concat_eq_append] at hsplit
  obtain ⟨hflatten, hnonempty, hchains, hborders⟩ := List.splitBy_eq_iff.mp hsplit
  have hlast : last ≠ [] := fun hnil => hnonempty (by simp [hnil])
  have hkey : key (last.getLast hlast) = key x := by
    rw [hflatten, List.flatten_append, List.flatten_singleton,
      List.getLast?_append_of_ne_nil _ hlast, List.getLast?_eq_some_getLast hlast] at h
    exact Option.some.inj h
  have hlonger : (xs ++ [x]).splitBy (fun a b => key a = key b) = earlier ++ [last ++ [x]] := by
    rw [List.splitBy_eq_iff]
    refine ⟨by rw [hflatten]; simp, ?_, ?_, ?_⟩
    · intro hnil
      rcases List.mem_append.mp hnil with hearlier | hnil
      · exact hnonempty (List.mem_append_left _ hearlier)
      · simp at hnil
    · intro run hrun
      rcases List.mem_append.mp hrun with hearlier | hrun
      · exact hchains run (List.mem_append_left _ hearlier)
      · rw [List.mem_singleton.mp hrun]
        refine List.isChain_append.mpr ⟨hchains last (by simp), List.isChain_singleton x, ?_⟩
        intro before hbefore after hafter
        rw [List.getLast?_eq_some_getLast hlast] at hbefore
        obtain rfl := Option.mem_some.mp hbefore
        obtain rfl : x = after := by simpa using hafter
        exact decide_eq_true hkey
    · obtain ⟨hearlier, -, hborder⟩ := List.isChain_append.mp hborders
      refine List.isChain_append.mpr ⟨hearlier, List.isChain_singleton _, ?_⟩
      intro run hrun longer hlonger
      obtain rfl : last ++ [x] = longer := by simpa using hlonger
      obtain ⟨ha, _, hne⟩ := hborder run hrun last (by simp)
      refine ⟨ha, by simp, ?_⟩
      rwa [List.head_append_of_ne_nil hlast]
  unfold collapse
  rw [hlonger, hsplit, List.filterMap_append, List.filterMap_append]
  obtain ⟨first, rest, rfl⟩ := List.exists_cons_of_ne_nil hlast
  rfl

theorem collapse_snoc (xs : List α) (x : α) :
    collapse key (xs ++ [x]) =
      if xs.getLast?.map key = some (key x) then collapse key xs else collapse key xs ++ [x] := by
  split
  · exact collapse_snoc_of_eq key ‹_›
  · exact collapse_snoc_of_ne key ‹_›

theorem getLast?_collapse (xs : List α) :
    (collapse key xs).getLast?.map key = xs.getLast?.map key := by
  induction xs using List.reverseRecOn with
  | nil => rfl
  | append_singleton xs x ih =>
      rw [collapse_snoc, List.getLast?_concat]
      split
      · rename_i hsame
        rw [ih, hsame]
        rfl
      · rw [List.getLast?_concat]

omit [DecidableEq κ] in
theorem getLast?_rtake {cap : Nat} (hcap : 0 < cap) (xs : List α) :
    (xs.rtake cap).getLast? = xs.getLast? := by
  obtain ⟨cap, rfl⟩ := Nat.exists_eq_add_of_lt hcap
  induction xs using List.reverseRecOn with
  | nil => rw [List.rtake_nil]
  | append_singleton xs x _ =>
      rw [Nat.zero_add, List.rtake_concat_succ, List.getLast?_concat,
        List.getLast?_concat]

omit [DecidableEq κ] in
theorem rtake_rtake {few many : Nat} (h : few ≤ many) (xs : List α) :
    (xs.rtake many).rtake few = xs.rtake few := by
  rw [List.rtake_eq_reverse_take_reverse, List.rtake_eq_reverse_take_reverse,
    List.rtake_eq_reverse_take_reverse, List.reverse_reverse, List.take_take, min_eq_left h]

omit [DecidableEq κ] in
/-- What is truncated on the way makes no difference to what is kept. -/
theorem rtake_snoc_rtake (cap : Nat) (xs : List α) (x : α) :
    (xs.rtake cap ++ [x]).rtake cap = (xs ++ [x]).rtake cap := by
  cases cap with
  | zero => rw [List.rtake_zero, List.rtake_zero]
  | succ cap =>
      rw [List.rtake_concat_succ, List.rtake_concat_succ, rtake_rtake (Nat.le_succ cap)]

/-- Where no two neighbours have one key, there is nothing to collapse. -/
theorem collapse_eq_self {xs : List α} (h : xs.IsChain fun a b => key a ≠ key b) :
    collapse key xs = xs := by
  induction xs using List.reverseRecOn with
  | nil => rfl
  | append_singleton xs x ih =>
      obtain ⟨hxs, -, hborder⟩ := List.isChain_append.mp h
      have hne : xs.getLast?.map key ≠ some (key x) := by
        intro hsame
        obtain ⟨last, hlast, hkey⟩ := Option.map_eq_some_iff.mp hsame
        exact hborder last hlast x rfl hkey
      rw [collapse_snoc_of_ne key hne, ih hxs]

/-- One entry over and over is one run. -/
theorem collapse_replicate (n : Nat) (x : α) :
    collapse key (List.replicate (n + 1) x) = [x] := by
  induction n with
  | zero => exact collapse_eq_self key (List.isChain_singleton x)
  | succ n ih =>
      have hlast : (List.replicate (n + 1) x).getLast?.map key = some (key x) := by
        rw [List.replicate_succ', List.getLast?_concat, Option.map_some]
      rw [List.replicate_succ', collapse_snoc_of_eq key hlast, ih]

omit [DecidableEq κ] in
/-- Entries of different keys, entered in turn again and again. -/
theorem isChain_flatten_replicate {xs : List α} (h : (xs.map key).Nodup) (hmany : xs.length ≠ 1)
    (n : Nat) : (List.replicate n xs).flatten.IsChain fun a b => key a ≠ key b := by
  by_cases hnil : xs = []
  · rw [hnil, List.flatten_replicate_nil]
    exact List.isChain_nil
  · rw [List.isChain_flatten fun hmem => hnil (List.eq_of_mem_replicate hmem).symm]
    have hdistinct : xs.Pairwise fun a b => key a ≠ key b := List.pairwise_map.mp h
    refine ⟨fun ys hys => List.eq_of_mem_replicate hys ▸ hdistinct.isChain, ?_⟩
    refine List.isChain_replicate_of_rel n fun last hlast first hfirst hsame => ?_
    obtain ⟨rest, rfl⟩ := List.head?_eq_some_iff.mp hfirst
    rcases rest.eq_nil_or_concat with rfl | ⟨front, other, rfl⟩
    · exact hmany rfl
    · rw [List.concat_eq_append, ← List.cons_append, Option.mem_def, List.getLast?_concat] at hlast
      obtain rfl := Option.some.inj hlast
      exact (List.pairwise_cons.mp hdistinct).1 other (by simp) hsame.symm

/-- The keys of a log are kept as the log is. -/
theorem map_retain (cap : Nat) (kept : List α) (x : α) :
    (retain key cap kept x).map key = retain id cap (kept.map key) (key x) := by
  have hlast : (kept.map key).getLast?.map id = some (id (key x)) ↔
      kept.getLast?.map key = some (key x) := by
    rw [List.getLast?_map, Option.map_id]
    exact Iff.rfl
  unfold retain
  rw [if_congr hlast rfl rfl]
  split
  · rfl
  · rw [List.rtake, List.map_drop, List.map_append, List.rtake, List.length_append,
      List.length_append, List.length_map]
    rfl

/-- One more entry in a log that holds the newest of the collapsed history. -/
theorem retain_collapse {cap : Nat} (hcap : 0 < cap) (history : List α) (x : α) :
    retain key cap ((collapse key history).rtake cap) x =
      (collapse key (history ++ [x])).rtake cap := by
  unfold retain
  rw [getLast?_rtake hcap, getLast?_collapse, collapse_snoc]
  split
  · rfl
  · exact rtake_snoc_rtake cap _ x

/-- A log that was empty holds the newest of its collapsed history. -/
theorem foldl_retain {cap : Nat} (hcap : 0 < cap) (history : List α) :
    history.foldl (retain key cap) [] = (collapse key history).rtake cap := by
  induction history using List.reverseRecOn with
  | nil => rw [List.foldl_nil, collapse_nil, List.rtake_nil]
  | append_singleton history x ih =>
      rw [List.foldl_append, ih, List.foldl_cons, List.foldl_nil, retain_collapse key hcap]

end Library
