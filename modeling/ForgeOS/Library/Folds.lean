import ForgeOS.Library.Dict
import Mathlib.Algebra.BigOperators.Group.Finset.Piecewise
import Mathlib.Data.Finset.Dedup

/-!
Lists gone through item by item. Where reading an item can fail, the items are
read first and then worked on. Where every item is added to the bucket of its
key, a bucket holds the items of its key in their order, and what is summed
bucket by bucket is what is summed item by item.
-/

namespace Library

/-! ### Reading every item -/

section Reading

variable {ι α β σ ε : Type}

/-- A loop that reads an item before it works on it. -/
theorem foldlM_read {m : Type → Type} [Monad m] [LawfulMonad m] (read : ι → m α)
    (step : σ → α → σ) (items : List ι) (state : σ) :
    items.foldlM (fun state item => do return step state (← read item)) state = do
      return (← items.mapM read).foldl step state := by
  induction items generalizing state with
  | nil => simp
  | cons item rest ih =>
      rw [List.foldlM_cons, List.mapM_cons]
      simp only [bind_assoc, pure_bind, ih, List.foldl_cons]

/-- What two steps return, when neither fails. -/
theorem bind_eq_ok_iff {m : Except ε α} {f : α → Except ε β} {value : β} :
    m >>= f = .ok value ↔ ∃ first, m = .ok first ∧ f first = .ok value := by
  cases m with
  | error error => simp [bind, Except.bind]
  | ok first => simp [bind, Except.bind]

theorem mapError_eq_ok_iff {ε' : Type} {m : Except ε α} {view : ε → ε'} {value : α} :
    m.mapError view = .ok value ↔ m = .ok value := by
  cases m with
  | error error => simp [Except.mapError]
  | ok value => simp [Except.mapError]

theorem mapM_eq_error_iff {read : ι → Except ε α} {items : List ι} :
    (∃ error, items.mapM read = .error error) ↔
      ∃ item ∈ items, ∃ error, read item = .error error := by
  induction items with
  | nil => simp [pure, Except.pure]
  | cons item rest ih =>
      rw [List.mapM_cons]
      cases hread : read item with
      | error error => simp [bind, Except.bind, hread]
      | ok value =>
          cases hrest : rest.mapM read with
          | error error =>
              rw [hrest] at ih
              have hfails := ih.mp ⟨error, rfl⟩
              simp [bind, Except.bind, hread, hfails]
          | ok values =>
              rw [hrest] at ih
              have hnone := mt ih.mpr (by simp)
              simpa [bind, Except.bind, pure, Except.pure, hread] using hnone

theorem mapM_eq_ok_iff {read : ι → Except ε α} {items : List ι} :
    (∃ values, items.mapM read = .ok values) ↔ ∀ item ∈ items, ∃ value, read item = .ok value := by
  induction items with
  | nil => exact iff_of_true ⟨[], rfl⟩ (by simp)
  | cons item rest ih =>
      rw [List.forall_mem_cons, ← ih, List.mapM_cons]
      constructor
      · rintro ⟨values, h⟩
        obtain ⟨value, hitem, h⟩ := bind_eq_ok_iff.mp h
        obtain ⟨others, hrest, -⟩ := bind_eq_ok_iff.mp h
        exact ⟨⟨value, hitem⟩, others, hrest⟩
      · rintro ⟨⟨value, hitem⟩, others, hrest⟩
        rw [hitem, hrest]
        exact ⟨value :: others, rfl⟩

theorem mapM_eq_some_iff {f : ι → Option α} {items : List ι} {values : List α} :
    items.mapM f = some values ↔
      List.Forall₂ (fun item value => f item = some value) items values := by
  induction items generalizing values with
  | nil =>
      rw [List.mapM_nil, List.forall₂_nil_left_iff]
      exact Option.some_inj.trans eq_comm
  | cons item rest ih =>
      rw [List.mapM_cons, List.forall₂_cons_left_iff]
      simp only [Option.bind_eq_bind, Option.bind_eq_some_iff, Option.pure_def,
        Option.some.injEq, ih]
      constructor
      · rintro ⟨value, hvalue, others, hrest, rfl⟩
        exact ⟨value, others, hvalue, hrest, rfl⟩
      · rintro ⟨value, others, hvalue, hrest, rfl⟩
        exact ⟨value, hvalue, others, hrest, rfl⟩

/-- Items that are left as they are. -/
theorem mapM_eq_self_iff {f : ι → Option ι} {items : List ι} :
    items.mapM f = some items ↔ ∀ item ∈ items, f item = some item :=
  mapM_eq_some_iff.trans List.forall₂_same

/-- Something is made of the values of the items exactly if each item has one. -/
theorem exists_mapM_bind_iff {read : ι → Except ε α} {items : List ι} {make : List α → β} :
    (∃ made, (items.mapM read >>= fun values => Except.ok (make values)) = .ok made) ↔
      ∀ item ∈ items, ∃ value, read item = .ok value := by
  rw [← mapM_eq_ok_iff]
  constructor
  · rintro ⟨made, hmade⟩
    obtain ⟨values, hvalues, -⟩ := bind_eq_ok_iff.mp hmade
    exact ⟨values, hvalues⟩
  · rintro ⟨values, hvalues⟩
    exact ⟨make values, bind_eq_ok_iff.mpr ⟨values, hvalues, rfl⟩⟩

/-- What is read comes from some item. -/
theorem mem_of_mapM_eq_ok {read : ι → Except ε α} {items : List ι} {values : List α}
    (h : items.mapM read = .ok values) {value : α} (hvalue : value ∈ values) :
    ∃ item ∈ items, read item = .ok value := by
  induction items generalizing values with
  | nil =>
      obtain rfl : [] = values := Except.ok.inj h
      cases hvalue
  | cons item rest ih =>
      rw [List.mapM_cons] at h
      obtain ⟨first, hitem, h⟩ := bind_eq_ok_iff.mp h
      obtain ⟨others, hrest, h⟩ := bind_eq_ok_iff.mp h
      rw [← Except.ok.inj h] at hvalue
      rcases List.mem_cons.mp hvalue with rfl | hother
      · exact ⟨item, List.mem_cons_self, hitem⟩
      · obtain ⟨other, hmember, hread⟩ := ih hrest hother
        exact ⟨other, List.mem_cons_of_mem _ hmember, hread⟩

theorem exists_mem_of_mapM_eq_ok {read : ι → Except ε α} {items : List ι} {values : List α}
    (h : items.mapM read = .ok values) {item : ι} (hitem : item ∈ items) :
    ∃ value ∈ values, read item = .ok value := by
  induction items generalizing values with
  | nil => cases hitem
  | cons first rest ih =>
      rw [List.mapM_cons] at h
      obtain ⟨value, hfirst, h⟩ := bind_eq_ok_iff.mp h
      obtain ⟨others, hrest, h⟩ := bind_eq_ok_iff.mp h
      rw [← Except.ok.inj h]
      rcases List.mem_cons.mp hitem with rfl | hmember
      · exact ⟨value, List.mem_cons_self, hfirst⟩
      · obtain ⟨other, hother, hread⟩ := ih hrest hmember
        exact ⟨other, List.mem_cons_of_mem _ hother, hread⟩

/-- A second reading that goes with the first on every item. -/
theorem mapM_eq_ok_map {read : ι → Except ε α} {other : ι → Except ε β} {view : α → β}
    (h : ∀ item value, read item = .ok value → other item = .ok (view value))
    {items : List ι} {values : List α} (hread : items.mapM read = .ok values) :
    items.mapM other = .ok (values.map view) := by
  induction items generalizing values with
  | nil =>
      obtain rfl : [] = values := Except.ok.inj hread
      rfl
  | cons item rest ih =>
      rw [List.mapM_cons] at hread ⊢
      obtain ⟨value, hitem, hread⟩ := bind_eq_ok_iff.mp hread
      obtain ⟨others, hrest, hread⟩ := bind_eq_ok_iff.mp hread
      rw [← Except.ok.inj hread, h item value hitem, ih hrest]
      rfl

theorem mapM_eq_ok_of_forall {read : ι → Except ε α} {view : ι → α} {items : List ι}
    (h : ∀ item ∈ items, read item = .ok (view item)) :
    items.mapM read = .ok (items.map view) := by
  induction items with
  | nil => rfl
  | cons item rest ih =>
      rw [List.forall_mem_cons] at h
      rw [List.mapM_cons, h.1, ih h.2]
      rfl

/-- A read that returns under a condition, over a list. -/
theorem mapM_eq_ok_iff_map {read : ι → Except ε α} {returns : ι → Prop} {view : ι → α}
    (h : ∀ item value, read item = .ok value ↔ returns item ∧ value = view item)
    {items : List ι} {values : List α} :
    items.mapM read = .ok values ↔ (∀ item ∈ items, returns item) ∧ values = items.map view := by
  have hmap (hall : ∀ item ∈ items, returns item) : items.mapM read = .ok (items.map view) :=
    mapM_eq_ok_of_forall fun item hitem => (h item _).mpr ⟨hall item hitem, rfl⟩
  constructor
  · intro hread
    have hall : ∀ item ∈ items, returns item := by
      intro item hitem
      obtain ⟨value, hvalue⟩ := mapM_eq_ok_iff.mp ⟨values, hread⟩ item hitem
      exact ((h item value).mp hvalue).1
    exact ⟨hall, Except.ok.inj (hread.symm.trans (hmap hall))⟩
  · rintro ⟨hall, rfl⟩
    exact hmap hall

theorem mapM_append_eq_ok {read : ι → Except ε α} {items others : List ι} {values more : List α}
    (h : items.mapM read = .ok values) (hothers : others.mapM read = .ok more) :
    (items ++ others).mapM read = .ok (values ++ more) := by
  rw [List.mapM_append, h, hothers]
  rfl

/-- Both parts of a list that was read were read. -/
theorem mapM_append_eq_ok_iff {read : ι → Except ε α} {items others : List ι} {all : List α} :
    (items ++ others).mapM read = .ok all ↔
      ∃ values more, items.mapM read = .ok values ∧ others.mapM read = .ok more ∧
        all = values ++ more := by
  rw [List.mapM_append, bind_eq_ok_iff]
  constructor
  · rintro ⟨values, hitems, h⟩
    obtain ⟨more, hothers, h⟩ := bind_eq_ok_iff.mp h
    exact ⟨values, more, hitems, hothers, (Except.ok.inj h).symm⟩
  · rintro ⟨values, more, hitems, hothers, rfl⟩
    refine ⟨values, hitems, ?_⟩
    rw [hothers]
    rfl

/-- Read in another order, a list gives the same values in another order. -/
theorem mapM_perm {read : ι → Except ε α} {items items' : List ι} (hperm : items.Perm items')
    {values : List α} (h : items.mapM read = .ok values) :
    ∃ values', items'.mapM read = .ok values' ∧ values.Perm values' := by
  induction hperm generalizing values with
  | nil => exact ⟨values, h, .refl values⟩
  | cons item _ ih =>
      rw [List.mapM_cons] at h
      obtain ⟨first, hitem, h⟩ := bind_eq_ok_iff.mp h
      obtain ⟨rest, hrest, h⟩ := bind_eq_ok_iff.mp h
      obtain ⟨rest', hrest', hvalues⟩ := ih hrest
      refine ⟨first :: rest', ?_, ?_⟩
      · rw [List.mapM_cons, hitem, hrest']
        rfl
      · rw [← Except.ok.inj h]
        exact hvalues.cons first
  | swap item other items =>
      rw [List.mapM_cons, List.mapM_cons] at h
      obtain ⟨first, hitem, h⟩ := bind_eq_ok_iff.mp h
      obtain ⟨others, hothers, h⟩ := bind_eq_ok_iff.mp h
      obtain ⟨second, hother, hothers⟩ := bind_eq_ok_iff.mp hothers
      obtain ⟨rest, hrest, hothers⟩ := bind_eq_ok_iff.mp hothers
      refine ⟨second :: first :: rest, ?_, ?_⟩
      · rw [List.mapM_cons, List.mapM_cons, hother, hitem, hrest]
        rfl
      · rw [← Except.ok.inj h, ← Except.ok.inj hothers]
        exact .swap second first rest
  | trans _ _ ih ih' =>
      obtain ⟨values', hmiddle, hvalues⟩ := ih h
      obtain ⟨values'', hlast, hvalues'⟩ := ih' hmiddle
      exact ⟨values'', hlast, hvalues.trans hvalues'⟩

end Reading

namespace Dict

variable {κ α β ε : Type} {f : α → Except ε β}

/-- Replace every value, in the order of the entries, unless one raises. -/
def traverse (f : α → Except ε β) : Dict κ α → Except ε (Dict κ β)
  | [] => .ok []
  | entry :: rest => do
      let value ← f entry.2
      let others ← traverse f rest
      return (entry.1, value) :: others

theorem traverse_cons {entry : κ × α} {rest : Dict κ α} {e : Dict κ β}
    (h : traverse f (entry :: rest) = .ok e) :
    ∃ value others, f entry.2 = .ok value ∧ traverse f rest = .ok others ∧
      e = (entry.1, value) :: others := by
  obtain ⟨value, hvalue, h⟩ := bind_eq_ok_iff.mp h
  obtain ⟨others, hothers, h⟩ := bind_eq_ok_iff.mp h
  exact ⟨value, others, hvalue, hothers, (Except.ok.inj h).symm⟩

theorem keys_traverse {d : Dict κ α} {e : Dict κ β} (h : traverse f d = .ok e) :
    e.map Prod.fst = d.map Prod.fst := by
  induction d generalizing e with
  | nil =>
      cases h
      rfl
  | cons entry rest ih =>
      obtain ⟨value, others, -, hrest, rfl⟩ := traverse_cons h
      rw [List.map_cons, List.map_cons, ih hrest]

theorem exists_of_mem_traverse {d : Dict κ α} {e : Dict κ β} (h : traverse f d = .ok e)
    {other : κ × β} (hother : other ∈ e) :
    ∃ entry ∈ d, entry.1 = other.1 ∧ f entry.2 = .ok other.2 := by
  induction d generalizing e with
  | nil =>
      cases h
      cases hother
  | cons entry rest ih =>
      obtain ⟨value, others, hvalue, hrest, rfl⟩ := traverse_cons h
      rcases List.mem_cons.mp hother with rfl | hmember
      · exact ⟨entry, List.mem_cons_self, rfl, hvalue⟩
      · obtain ⟨found, hfound, hread⟩ := ih hrest hmember
        exact ⟨found, List.mem_cons_of_mem _ hfound, hread⟩

/-- What is looked up has been replaced. -/
theorem get?_traverse [DecidableEq κ] {d : Dict κ α} {e : Dict κ β} (h : traverse f d = .ok e)
    (key : κ) : Option.Rel (fun value other => f value = .ok other) (d.get? key) (e.get? key) := by
  induction d generalizing e with
  | nil =>
      cases h
      exact .none
  | cons entry rest ih =>
      obtain ⟨value, others, hvalue, hrest, rfl⟩ := traverse_cons h
      rw [get?_cons, get?_cons]
      dsimp only
      split
      · exact .some hvalue
      · exact ih hrest

/-- What undoes something else gives back every value. -/
theorem traverse_map {g : β → α} {e : Dict κ β}
    (h : ∀ entry ∈ e, f (g entry.2) = .ok entry.2) :
    traverse f (e.map fun entry => (entry.1, g entry.2)) = .ok e := by
  induction e with
  | nil => rfl
  | cons entry rest ih =>
      obtain ⟨hentry, hrest⟩ := List.forall_mem_cons.mp h
      rw [List.map_cons, traverse, hentry, ih hrest]
      rfl

end Dict

/-! ### Buckets -/

open Finset

namespace Buckets

variable {ι κ β : Type} [DecidableEq κ] (key : ι → κ) (add : β → ι → β) (start : β)

/-- One item more. -/
def put (buckets : Dict κ β) (item : ι) : Dict κ β :=
  buckets.set (key item) (add ((buckets.get? (key item)).getD start) item)

/-- The buckets of a list of items. -/
def collect (items : List ι) : Dict κ β := items.foldl (put key add start) []

/-- What a bucket is after some items more. -/
private theorem get?_foldl_put (items : List ι) (buckets : Dict κ β) (k : κ) :
    (items.foldl (put key add start) buckets).get? k =
      if k ∈ items.map key then
        some ((items.filter fun item => key item = k).foldl add ((buckets.get? k).getD start))
      else buckets.get? k := by
  induction items generalizing buckets with
  | nil => rfl
  | cons item rest ih =>
      rw [List.foldl_cons, ih, put, Dict.get?_set]
      by_cases hkey : key item = k
      · by_cases hrest : k ∈ rest.map key
        · simp [hkey, hrest]
        · have hnone : rest.filter (fun item => key item = k) = [] := by
            apply List.filter_eq_nil_iff.mpr
            intro other hother
            have hmember : key other ∈ rest.map key := List.mem_map_of_mem hother
            intro heq
            rw [of_decide_eq_true heq] at hmember
            exact hrest hmember
          simp [hkey, hrest, hnone]
      · have hne : ¬k = key item := fun h => hkey h.symm
        simp [hkey, hne]

/-- A bucket holds the items of its key, and a key without items has none. -/
theorem get?_collect (items : List ι) (k : κ) :
    (collect key add start items).get? k =
      if k ∈ items.map key then some ((items.filter fun item => key item = k).foldl add start)
      else none :=
  get?_foldl_put key add start items [] k

theorem nodup_keys_collect (items : List ι) :
    ((collect key add start items).map Prod.fst).Nodup := by
  suffices h : ∀ buckets : Dict κ β, (buckets.map Prod.fst).Nodup →
      ((items.foldl (put key add start) buckets).map Prod.fst).Nodup from h [] List.nodup_nil
  induction items with
  | nil => exact fun _ h => h
  | cons item rest ih => exact fun buckets h => ih _ (Dict.nodup_keys_set h _ _)

/-- A key has a bucket when it has an item. -/
theorem mem_keys_collect {items : List ι} {k : κ} :
    k ∈ (collect key add start items).map Prod.fst ↔ k ∈ items.map key := by
  constructor
  · intro h
    have hsome := Dict.get?_isSome_of_mem h
    rw [get?_collect] at hsome
    split at hsome
    · assumption
    · cases hsome
  · intro h
    have hget := get?_collect key add start items k
    rw [if_pos h] at hget
    exact List.mem_map_of_mem (f := Prod.fst) (Dict.mem_of_get? hget)

theorem snd_of_mem_collect {items : List ι} {entry : κ × β}
    (h : entry ∈ collect key add start items) :
    entry.2 = (items.filter fun item => key item = entry.1).foldl add start := by
  have hget := Dict.get?_of_mem (nodup_keys_collect key add start items) h
  rw [get?_collect, if_pos ((mem_keys_collect key add start).mp (List.mem_map_of_mem h)),
    Option.some.injEq] at hget
  exact hget.symm

variable {M : Type} [AddCommMonoid M]

/-- A sum over the buckets is a sum over the keys of the items. -/
theorem sum_collect (value : β → M) (items : List ι) :
    ((collect key add start items).map fun entry => value entry.2).sum =
      ∑ k ∈ (items.map key).toFinset,
        value ((items.filter fun item => key item = k).foldl add start) := by
  have hkeys : ((collect key add start items).map Prod.fst).toFinset = (items.map key).toFinset :=
    by
      ext k
      rw [List.mem_toFinset, List.mem_toFinset, mem_keys_collect]
  rw [← hkeys, List.sum_toFinset _ (nodup_keys_collect key add start items), List.map_map]
  congr 1
  apply List.map_congr_left
  intro entry hentry
  rw [Function.comp_apply, snd_of_mem_collect key add start hentry]

omit β in
/-- Summed key by key, or item by item. -/
theorem sum_keys (value : ι → M) (items : List ι) :
    ∑ k ∈ (items.map key).toFinset, ((items.filter fun item => key item = k).map value).sum =
      (items.map value).sum := by
  suffices h : ∀ keys : Finset κ, (∀ item ∈ items, key item ∈ keys) →
      ∑ k ∈ keys, ((items.filter fun item => key item = k).map value).sum =
        (items.map value).sum from
    h _ fun item hitem => List.mem_toFinset.mpr (List.mem_map_of_mem hitem)
  intro keys
  induction items with
  | nil => intro _; simp
  | cons item rest ih =>
      intro hkeys
      have hrest := ih fun other hother => hkeys other (List.mem_cons_of_mem _ hother)
      have hitem : key item ∈ keys := hkeys item List.mem_cons_self
      calc
        ∑ k ∈ keys, (((item :: rest).filter fun other => key other = k).map value).sum
            = ∑ k ∈ keys, ((if key item = k then value item else 0) +
                ((rest.filter fun other => key other = k).map value).sum) := by
              apply Finset.sum_congr rfl
              intro k _
              by_cases hkey : key item = k
              · simp [hkey]
              · simp [hkey]
        _ = value item + (rest.map value).sum := by
              rw [Finset.sum_add_distrib, hrest, Finset.sum_ite_eq, if_pos hitem]
        _ = ((item :: rest).map value).sum := by rw [List.map_cons, List.sum_cons]

end Buckets

end Library
