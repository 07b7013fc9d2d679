import Mathlib.Data.List.Basic

/-!
Paths resolved by their text alone. A path is a list of segments, read from
the left by a walk that goes down into a name, up to a parent, or stays. A walk
that goes up more often than down leaves the place it has started from, and
counts how far. The file gives the rules for segments that make no difference,
and for what a walk makes of the names it starts with.
-/

namespace Library

inductive PathSegment (α : Type) where
  | stay
  | up
  | name (a : α)

/-- Where a walk has come to: so many levels above its start, and the names
below that, the innermost first. -/
structure PathWalk (α : Type) where
  ups : Nat
  names : List α

namespace PathWalk

variable {α : Type}

def start : PathWalk α := ⟨0, []⟩

def step (s : PathWalk α) : PathSegment α → PathWalk α
  | .stay => s
  | .name a => { s with names := a :: s.names }
  | .up =>
      match s.names with
      | [] => { s with ups := s.ups + 1 }
      | _ :: rest => { s with names := rest }

def walk (s : PathWalk α) (segments : List (PathSegment α)) : PathWalk α := segments.foldl step s

variable (s : PathWalk α) (segments : List (PathSegment α))

@[simp]
theorem walk_nil : s.walk [] = s := rfl

@[simp]
theorem walk_cons (segment : PathSegment α) :
    s.walk (segment :: segments) = (s.step segment).walk segments := rfl

theorem walk_append (others : List (PathSegment α)) :
    s.walk (segments ++ others) = (s.walk segments).walk others := List.foldl_append

@[simp]
theorem step_stay : s.step .stay = s := rfl

/-- Into a name and up again. -/
@[simp]
theorem step_detour (a : α) : (s.step (.name a)).step .up = s := rfl

theorem ups_le_step (segment : PathSegment α) : s.ups ≤ (s.step segment).ups := by
  cases segment with
  | stay => exact Nat.le_refl _
  | name a => exact Nat.le_refl _
  | up =>
      unfold step
      cases s.names with
      | nil => exact Nat.le_succ _
      | cons a rest => exact Nat.le_refl _

/-- What has been left is never entered again. -/
theorem ups_le_walk : s.ups ≤ (s.walk segments).ups := by
  induction segments generalizing s with
  | nil => exact Nat.le_refl _
  | cons segment rest ih => exact Nat.le_trans (s.ups_le_step segment) (ih _)

/-- Names a walk comes to are names it started with, or names of its path. -/
theorem mem_names_walk {a : α} (h : a ∈ (s.walk segments).names) :
    a ∈ s.names ∨ .name a ∈ segments := by
  induction segments generalizing s with
  | nil => exact Or.inl h
  | cons segment rest ih =>
      rcases ih _ h with hstep | hrest
      · cases segment with
        | stay => exact Or.inl hstep
        | name b =>
            rcases List.mem_cons.mp hstep with rfl | hold
            · exact Or.inr List.mem_cons_self
            · exact Or.inl hold
        | up =>
            cases hnames : s.names with
            | nil => simp [step, hnames] at hstep
            | cons b inner =>
                simp only [step, hnames] at hstep
                exact Or.inl (List.mem_cons_of_mem _ hstep)
      · exact Or.inr (List.mem_cons_of_mem _ hrest)

/-- A walk keeps the outermost name it starts with, or leaves it. In the one
case it does so for a start without that name, in the other that start is left
behind. -/
theorem walk_outermost (k : Nat) (inner : List α) :
    (∃ names, (walk ⟨k, inner⟩ segments) = ⟨k, names⟩ ∧
      ∀ a, walk ⟨k, inner ++ [a]⟩ segments = ⟨k, names ++ [a]⟩) ∨
    k < (walk ⟨k, inner⟩ segments).ups ∧
      ∀ a b, walk ⟨k, inner ++ [a]⟩ segments = walk ⟨k, inner ++ [b]⟩ segments := by
  induction segments generalizing inner with
  | nil => exact Or.inl ⟨inner, rfl, fun a => rfl⟩
  | cons segment rest ih =>
      cases segment with
      | stay => exact ih inner
      | name b => exact ih (b :: inner)
      | up =>
          cases inner with
          | nil => exact Or.inr ⟨ups_le_walk ⟨k + 1, []⟩ rest, fun a b => rfl⟩
          | cons b inner => exact ih inner

end PathWalk

/-! ### Segments of a text -/

/-- How a walk reads a segment of a text. -/
def pathSegment (text : List Char) : PathSegment (List Char) :=
  if text = [] ∨ text = ['.'] then .stay
  else if text = ['.', '.'] then .up
  else .name text

/-- A text that is read as a name. -/
structure IsPathName (text : List Char) : Prop where
  ne_nil : text ≠ []
  ne_dot : text ≠ ['.']
  ne_dots : text ≠ ['.', '.']

instance (text : List Char) : Decidable (IsPathName text) :=
  decidable_of_iff (text ≠ [] ∧ text ≠ ['.'] ∧ text ≠ ['.', '.'])
    ⟨fun h => ⟨h.1, h.2.1, h.2.2⟩, fun h => ⟨h.ne_nil, h.ne_dot, h.ne_dots⟩⟩

theorem pathSegment_of_isPathName {text : List Char} (h : IsPathName text) :
    pathSegment text = .name text := by
  simp [pathSegment, h.ne_nil, h.ne_dot, h.ne_dots]

theorem pathSegment_eq_name {text name : List Char} :
    pathSegment text = .name name ↔ text = name ∧ IsPathName text := by
  constructor
  · intro h
    unfold pathSegment at h
    split_ifs at h with hstay hup
    exact ⟨PathSegment.name.inj h,
      fun hnil => hstay (Or.inl hnil), fun hdot => hstay (Or.inr hdot), hup⟩
  · rintro ⟨rfl, h⟩
    exact pathSegment_of_isPathName h

theorem of_mem_splitOn {α : Type} [BEq α] [LawfulBEq α] {separator : α} {text : List α} :
    ∀ segment ∈ text.splitOn separator, separator ∉ segment ∧ segment ⊆ text := by
  induction text with
  | nil => simp
  | cons c rest ih =>
      intro segment hsegment
      rw [List.splitOn_cons_eq_if_modifyHead] at hsegment
      split_ifs at hsegment with hc
      · rcases List.mem_cons.mp hsegment with rfl | hrest
        · exact ⟨List.not_mem_nil, List.nil_subset _⟩
        · obtain ⟨hnone, hsubset⟩ := ih segment hrest
          exact ⟨hnone, List.subset_cons_of_subset c hsubset⟩
      · obtain ⟨head, tail, hsplit⟩ :=
          List.exists_cons_of_ne_nil (List.splitOn_ne_nil separator rest)
        rw [hsplit] at hsegment ih
        rcases List.mem_cons.mp hsegment with rfl | hrest
        · obtain ⟨hnone, hsubset⟩ := ih head List.mem_cons_self
          rw [List.mem_cons, not_or]
          exact ⟨⟨fun heq => hc (by simp [heq]), hnone⟩, List.cons_subset_cons c hsubset⟩
        · obtain ⟨hnone, hsubset⟩ := ih segment (List.mem_cons_of_mem _ hrest)
          exact ⟨hnone, List.subset_cons_of_subset c hsubset⟩

/-- A path, read from its start. -/
def lexicalWalk (texts : List (List Char)) : PathWalk (List Char) :=
  PathWalk.start.walk (texts.map pathSegment)

theorem names_lexicalWalk {texts : List (List Char)} {name : List Char}
    (h : name ∈ (lexicalWalk texts).names) : name ∈ texts ∧ IsPathName name := by
  rcases PathWalk.mem_names_walk _ _ h with hstart | hsegment
  · cases hstart
  · obtain ⟨text, htext, hname⟩ := List.mem_map.mp hsegment
    obtain ⟨rfl, hproper⟩ := pathSegment_eq_name.mp hname
    exact ⟨htext, hproper⟩

/-- Names lead to themselves. -/
theorem lexicalWalk_names {names : List (List Char)} (h : ∀ name ∈ names, IsPathName name) :
    lexicalWalk names = ⟨0, names.reverse⟩ := by
  have hwalk (s : PathWalk (List Char)) :
      s.walk (names.map pathSegment) = ⟨s.ups, names.reverse ++ s.names⟩ := by
    induction names generalizing s with
    | nil => rfl
    | cons name rest ih =>
        rw [List.map_cons, PathWalk.walk_cons,
          pathSegment_of_isPathName (h name List.mem_cons_self),
          ih (fun other hother => h other (List.mem_cons_of_mem _ hother))]
        simp [PathWalk.step]
  simpa [lexicalWalk, PathWalk.start] using hwalk PathWalk.start

/-! ### Joining segments -/

/-- The text of a path, `.` for one without segments. -/
def joinPath (segments : List (List Char)) : List Char :=
  if segments = [] then ['.'] else ['/'].intercalate segments

/-- Joined segments are taken apart again. -/
theorem splitOn_joinPath {texts : List (List Char)} (hne : texts ≠ [])
    (hslash : ∀ text ∈ texts, '/' ∉ text) : (joinPath texts).splitOn '/' = texts := by
  rw [joinPath, if_neg hne]
  exact List.splitOn_intercalate '/' hslash hne

theorem head?_joinPath {first : List Char} (hne : first ≠ []) (rest : List (List Char)) :
    (joinPath (first :: rest)).head? = first.head? := by
  rw [joinPath, if_neg (List.cons_ne_nil _ _)]
  cases rest with
  | nil => rw [List.intercalate_singleton]
  | cons second others =>
      obtain ⟨c, chars, rfl⟩ := List.exists_cons_of_ne_nil hne
      rw [List.intercalate_cons_cons]
      rfl

theorem getLast?_joinPath {last : List Char} (hne : last ≠ []) (front : List (List Char)) :
    (joinPath (front ++ [last])).getLast? = last.getLast? := by
  have hcomps : front ++ [last] ≠ [] := by simp
  rw [joinPath, if_neg hcomps]
  induction front with
  | nil => rw [List.nil_append, List.intercalate_singleton]
  | cons text rest ih =>
      have hrest : rest ++ [last] ≠ [] := by simp
      rw [List.cons_append, List.intercalate_cons_of_ne_nil hrest, List.getLast?_append,
        ih hrest]
      obtain ⟨c, hc⟩ := Option.isSome_iff_exists.mp (List.getLast?_isSome.mpr hne)
      rw [hc, Option.some_or]

theorem map_intercalate {α β : Type} (f : α → β) (separator : List α) (texts : List (List α)) :
    (separator.intercalate texts).map f =
      (separator.map f).intercalate (texts.map (List.map f)) := by
  induction texts with
  | nil => rfl
  | cons text rest ih =>
      cases rest with
      | nil => simp [List.intercalate_singleton]
      | cons second others =>
          rw [List.intercalate_cons_cons, List.map_append, List.map_append, ih]
          exact List.intercalate_cons_cons.symm

/-- The text of a path is rewritten segment by segment. -/
theorem map_joinPath {f : Char → Char} (hslash : f '/' = '/') {texts : List (List Char)}
    (hne : texts ≠ []) : (joinPath texts).map f = joinPath (texts.map (List.map f)) := by
  rw [joinPath, if_neg hne, map_intercalate, joinPath, if_neg (by simpa using hne)]
  simp only [List.map_cons, List.map_nil, hslash]

theorem not_mem_intercalate {c d : Char} (hcd : c ≠ d) {texts : List (List Char)}
    (h : ∀ text ∈ texts, c ∉ text) : c ∉ [d].intercalate texts := by
  induction texts with
  | nil => exact List.not_mem_nil
  | cons text rest ih =>
      have htext := h text List.mem_cons_self
      have hrest := ih fun other hother => h other (List.mem_cons_of_mem _ hother)
      cases rest with
      | nil => simpa using htext
      | cons second others =>
          rw [List.intercalate_cons_cons]
          simp [htext, hcd, hrest]

/-- The text of a path is as long as it has to be for its segments. -/
theorem length_intercalate_le {d : Char} {texts others : List (List Char)}
    (h : texts.Sublist others) :
    ([d].intercalate texts).length ≤ ([d].intercalate others).length := by
  have hcons (text : List Char) (rest : List (List Char)) :
      ([d].intercalate rest).length ≤ ([d].intercalate (text :: rest)).length := by
    cases rest with
    | nil => simp
    | cons second rest =>
        rw [List.intercalate_cons_cons, List.length_append, List.length_append]
        omega
  induction h with
  | slnil => exact Nat.le_refl _
  | cons text hrest ih => exact Nat.le_trans ih (hcons text _)
  | @cons_cons rest others text hrest ih =>
      cases rest with
      | nil =>
          cases others with
          | nil => exact Nat.le_refl _
          | cons second others => simp [List.intercalate_cons_cons]
      | cons first rest =>
          have hne : others ≠ [] := by
            rintro rfl
            cases hrest
          rw [List.intercalate_cons_of_ne_nil (List.cons_ne_nil _ _),
            List.intercalate_cons_of_ne_nil hne]
          simpa using ih

end Library
