import ForgeOS.Json
import ForgeOS.Library.LexicalPaths
import Mathlib.Data.List.DropRight

/-!
The paths OpenClaw may not write. A path is brought to a canonical text, which
is looked up among the protected ones. The canonical text is that of the file a
path leads to by its segments, when the blanks around it are taken off.
-/

namespace ForgeOS

open Library

namespace OpenClaw

/-! ### The guard -/

def forgeProtectedFiles : List String := [
  ".forge/config.yaml",
  ".forge/state.json",
  ".forge/events.jsonl",
  ".forge/session-log.jsonl",
  ".forge/patterns.jsonl",
  ".forge/lessons.yaml",
  "pipeline/state.md",
  "pipeline/gates.yaml",
  "pipeline/stages.yaml",
  "pipeline/dependencies.graphml"]

/-- `text.replace("\\", "/")`. -/
def withSlashes (text : List Char) : List Char := text.map fun c => if c = '\\' then '/' else c

/-- The loop of `posixpath.normpath`, for a path that does not begin with a
slash. -/
def normComp (comps : List (List Char)) (comp : List Char) : List (List Char) :=
  if comp = [] ∨ comp = ['.'] then comps
  else if comp ≠ ['.', '.'] ∨ comps = [] ∨ comps.getLast? = some ['.', '.'] then comps ++ [comp]
  else comps.dropLast

def normpath (path : List Char) : List Char := joinPath ((path.splitOn '/').foldl normComp [])

def canonicalRelpath (path : String) : Option String :=
  let raw := (pyStrip (String.ofList (withSlashes path.toList))).toList
  if raw = [] ∨ raw.head? = some '/' then none
  else
    let normalized := normpath raw
    if normalized = ['.', '.'] ∨ ['.', '.', '/'] <+: normalized then none
    else some (String.ofList normalized)

def isProtectedText (rel : String) : Bool :=
  rel ∈ forgeProtectedFiles ∨
    ".forge/".toList <+: rel.toList ∧ "-audit.jsonl".toList <:+ rel.toList

def isProtectedPath (path : String) : Bool := (canonicalRelpath path).any isProtectedText

/-! ### Where a path leads -/

/-- Where a path leads by its text; a backslash separates as a slash does. -/
inductive PathTarget where
  | absolute
  | outside
  | inside (names : List (List Char))

def segmentsOf (text : List Char) : List (List Char) := (withSlashes text).splitOn '/'

def lexicalTarget (text : List Char) : PathTarget :=
  if (withSlashes text).head? = some '/' then .absolute
  else
    match lexicalWalk (segmentsOf text) with
    | ⟨0, names⟩ => .inside names.reverse
    | ⟨_ + 1, _⟩ => .outside

def PathTarget.IsProtected : PathTarget → Prop
  | .inside names => isProtectedText (String.ofList (joinPath names)) = true
  | _ => False

/-- A place inside of the project that is not protected. -/
def PathTarget.Safe : PathTarget → Prop
  | .inside names => isProtectedText (String.ofList (joinPath names)) = false
  | _ => False

/-! ### Separators and blanks -/

/-- A text without the blanks in front of it. -/
def lstrip (text : List Char) : List Char := text.dropWhile isPySpace

/-- A text without the blanks behind it. -/
def rstrip (text : List Char) : List Char := text.rdropWhile isPySpace

theorem toList_pyStrip (text : String) : (pyStrip text).toList = rstrip (lstrip text.toList) := by
  rw [pyStrip, stripLine, String.toList_ofList]
  rfl

theorem withSlashes_lstrip (text : List Char) :
    withSlashes (lstrip text) = lstrip (withSlashes text) := by
  rw [lstrip, lstrip, withSlashes, withSlashes, List.dropWhile_map]
  simp only [Function.comp_def, isPySpace_slash]

theorem withSlashes_rstrip (text : List Char) :
    withSlashes (rstrip text) = rstrip (withSlashes text) := by
  rw [rstrip, rstrip, List.rdropWhile, List.rdropWhile, withSlashes, withSlashes,
    ← List.map_reverse, List.dropWhile_map, ← List.map_reverse]
  simp only [Function.comp_def, isPySpace_slash]

def IsSeparator (c : Char) : Prop := c = '/' ∨ c = '\\'

theorem segmentsOf_append {before after : List Char} {c : Char} (hc : IsSeparator c) :
    segmentsOf (before ++ c :: after) = segmentsOf before ++ segmentsOf after := by
  have hslash : withSlashes (before ++ c :: after) =
      withSlashes before ++ '/' :: withSlashes after := by
    rcases hc with rfl | rfl
    · simp [withSlashes]
    · simp [withSlashes]
  rw [segmentsOf, hslash]
  exact List.splitOn_append_cons_self ..

theorem rstrip_append {before after : List Char} {c : Char} (hc : isPySpace c = false) :
    rstrip (before ++ c :: after) = before ++ c :: rstrip after := by
  have hback : (before ++ c :: after).reverse = after.reverse ++ c :: before.reverse := by simp
  rw [rstrip, List.rdropWhile, hback, List.dropWhile_append,
    List.dropWhile_cons_of_neg (by simp [hc]), rstrip, List.rdropWhile]
  split_ifs with hempty
  · simp [List.isEmpty_iff.mp hempty]
  · simp

theorem isPySpace_separator {c : Char} (hc : IsSeparator c) : isPySpace c = false := by
  rcases hc with rfl | rfl
  · decide
  · decide

theorem segmentsOf_name {name : List Char} (h : ∀ c ∈ name, ¬IsSeparator c) :
    segmentsOf name = [name] := by
  have hslashes : withSlashes name = name :=
    (List.map_congr_left fun c hc => if_neg fun hback => h c hc (Or.inr hback)).trans
      (List.map_id name)
  rw [segmentsOf, hslashes]
  exact List.splitOn_eq_singleton fun hslash => h '/' hslash (Or.inl rfl)

/-- The blanks in front are those of the first segment. -/
theorem segmentsOf_lstrip {text first : List Char} {rest : List (List Char)}
    (h : segmentsOf text = first :: rest) : segmentsOf (lstrip text) = lstrip first :: rest := by
  rw [segmentsOf] at h ⊢
  rw [withSlashes_lstrip]
  generalize withSlashes text = slashed at h ⊢
  induction slashed generalizing first with
  | nil =>
      obtain ⟨rfl, rfl⟩ := List.cons.inj h
      rfl
  | cons c others ih =>
      rw [List.splitOn_cons_eq_if_modifyHead] at h
      split_ifs at h with hc
      · obtain ⟨rfl, rfl⟩ := List.cons.inj h
        obtain rfl : c = '/' := by simpa using hc
        rfl
      · obtain ⟨head, tail, hsplit⟩ := List.exists_cons_of_ne_nil (List.splitOn_ne_nil '/' others)
        rw [hsplit] at h
        obtain ⟨rfl, rfl⟩ := List.cons.inj h
        cases hspace : isPySpace c with
        | true =>
            rw [lstrip, lstrip, List.dropWhile_cons_of_pos hspace,
              List.dropWhile_cons_of_pos hspace]
            exact ih hsplit
        | false =>
            rw [lstrip, lstrip, List.dropWhile_cons_of_neg (by simp [hspace]),
              List.dropWhile_cons_of_neg (by simp [hspace]), List.splitOn_cons_eq_if_modifyHead,
              if_neg hc, hsplit]
            rfl

/-- The blanks in front do not depend on those behind. -/
theorem lstrip_rstrip (text : List Char) : lstrip (rstrip text) = rstrip (lstrip text) := by
  have hcons (c : Char) (rest : List Char) :
      rstrip (c :: rest) =
        if rstrip rest = [] ∧ isPySpace c = true then [] else c :: rstrip rest := by
    simp only [rstrip, List.rdropWhile, List.reverse_cons, List.dropWhile_append]
    by_cases hblank : List.dropWhile isPySpace rest.reverse = []
    · cases hspace : isPySpace c <;> simp [hblank, hspace]
    · simp [hblank]
  induction text with
  | nil => rfl
  | cons c rest ih =>
      cases hspace : isPySpace c with
      | true =>
          have hfront : lstrip (c :: rest) = lstrip rest := List.dropWhile_cons_of_pos hspace
          rw [hcons, hfront, ← ih]
          split_ifs with hblank
          · rw [hblank.1]
          · exact List.dropWhile_cons_of_pos hspace
      | false =>
          have hnone : ¬isPySpace c = true := by simp [hspace]
          have hfront : lstrip (c :: rest) = c :: rest := List.dropWhile_cons_of_neg hnone
          rw [hfront, hcons, if_neg (fun h => hnone h.2)]
          exact List.dropWhile_cons_of_neg hnone

theorem absolute_iff {text first : List Char} {rest : List (List Char)}
    (h : segmentsOf text = first :: rest) :
    (withSlashes text).head? = some '/' ↔ first = [] ∧ rest ≠ [] := by
  rw [segmentsOf] at h
  cases hslashed : withSlashes text with
  | nil =>
      rw [hslashed] at h
      obtain ⟨rfl, rfl⟩ := List.cons.inj h
      simp
  | cons c others =>
      rw [hslashed, List.splitOn_cons_eq_if_modifyHead] at h
      split_ifs at h with hc
      · obtain ⟨rfl, rfl⟩ := List.cons.inj h
        simpa using hc
      · obtain ⟨head, tail, hsplit⟩ := List.exists_cons_of_ne_nil (List.splitOn_ne_nil '/' others)
        rw [hsplit] at h
        obtain ⟨rfl, rfl⟩ := List.cons.inj h
        simpa using hc

/-- Where the segments of a text lead. -/
theorem lexicalTarget_eq {text first : List Char} {rest : List (List Char)}
    (h : segmentsOf text = first :: rest) :
    lexicalTarget text =
      if first = [] ∧ rest ≠ [] then .absolute
      else
        match lexicalWalk (first :: rest) with
        | ⟨0, names⟩ => .inside names.reverse
        | ⟨_ + 1, _⟩ => .outside := by
  simp only [lexicalTarget, absolute_iff h, h]

/-! ### Canonical texts -/

/-- The segments of the canonical text of a walk. -/
def comps (s : PathWalk (List Char)) : List (List Char) :=
  List.replicate s.ups ['.', '.'] ++ s.names.reverse

theorem normComp_comps {s : PathWalk (List Char)} (hnames : ∀ name ∈ s.names, IsPathName name)
    (comp : List Char) : normComp (comps s) comp = comps (s.step (pathSegment comp)) := by
  unfold normComp pathSegment
  split_ifs with hstay hpush hup hup
  · rfl
  · -- `..` is kept where it leads out
    have hempty : s.names = [] := by
      cases hcase : s.names with
      | nil => rfl
      | cons name inner =>
          have hname := hnames name (hcase ▸ List.mem_cons_self)
          rcases hpush with hdots | hnil | hlast
          · exact absurd hup hdots
          · simp [comps, hcase] at hnil
          · simp only [comps, hcase, List.reverse_cons, ← List.append_assoc,
              List.getLast?_concat, Option.some.injEq] at hlast
            exact absurd hlast hname.ne_dots
    simp [comps, PathWalk.step, hempty, hup, List.replicate_succ']
  · simp [comps, PathWalk.step]
  · cases hcase : s.names with
    | nil =>
        rw [not_or, not_or] at hpush
        cases hups : s.ups with
        | zero => simp [comps, hcase, hups] at hpush
        | succ k => simp [comps, hcase, hups, List.replicate_succ'] at hpush
    | cons name inner =>
        simp only [comps, PathWalk.step, hcase, List.reverse_cons, ← List.append_assoc]
        simp
  · exact absurd (by simpa using (not_or.mp hpush).1) hup

theorem foldl_normComp (texts : List (List Char)) {s : PathWalk (List Char)}
    (hnames : ∀ name ∈ s.names, IsPathName name) :
    texts.foldl normComp (comps s) = comps (s.walk (texts.map pathSegment)) := by
  induction texts generalizing s with
  | nil => rfl
  | cons text rest ih =>
      rw [List.foldl_cons, normComp_comps hnames, List.map_cons, PathWalk.walk_cons]
      refine ih fun name hname => ?_
      rcases PathWalk.mem_names_walk s [pathSegment text] hname with hold | hsegment
      · exact hnames name hold
      · rw [List.mem_singleton] at hsegment
        obtain ⟨rfl, hproper⟩ := pathSegment_eq_name.mp hsegment.symm
        exact hproper

theorem normpath_eq (path : List Char) :
    normpath path = joinPath (comps (lexicalWalk (path.splitOn '/'))) :=
  congrArg joinPath (foldl_normComp _ (s := PathWalk.start) fun _ h => nomatch h)

/-- A canonical text shows whether it leads out of the project. -/
theorem leadsOut_iff {s : PathWalk (List Char)}
    (hnames : ∀ name ∈ s.names, IsPathName name ∧ '/' ∉ name) :
    joinPath (comps s) = ['.', '.'] ∨ ['.', '.', '/'] <+: joinPath (comps s) ↔ s.ups ≠ 0 := by
  cases hups : s.ups with
  | zero =>
      have hcomps : comps s = s.names.reverse := by simp [comps, hups]
      have hproper (name : List Char) (h : name ∈ comps s) : IsPathName name ∧ '/' ∉ name :=
        hnames name (by simpa [hcomps] using h)
      simp only [ne_eq, not_true, iff_false, not_or]
      by_cases hne : comps s = []
      · rw [hne]
        decide
      · have hsplit := splitOn_joinPath hne fun name h => (hproper name h).2
        constructor
        · intro hdots
          rw [hdots] at hsplit
          exact (hproper ['.', '.'] (hsplit ▸ List.mem_singleton.mpr rfl)).1.ne_dots rfl
        · rintro ⟨rest, hrest⟩
          have hfirst : (['.', '.'] ++ '/' :: rest).splitOn '/' = ['.', '.'] :: rest.splitOn '/' :=
            List.splitOn_append_cons_self_of_not_mem (by decide) rest
          rw [← hrest] at hsplit
          have hmember : ['.', '.'] ∈ comps s := by
            rw [← hsplit]
            exact hfirst ▸ List.mem_cons_self
          exact (hproper _ hmember).1.ne_dots rfl
  | succ k =>
      have hcomps : comps s = ['.', '.'] :: (List.replicate k ['.', '.'] ++ s.names.reverse) := by
        rw [comps, hups, List.replicate_succ, List.cons_append]
      simp only [ne_eq, Nat.succ_ne_zero, not_false_eq_true, iff_true]
      rw [hcomps, joinPath, if_neg (List.cons_ne_nil _ _)]
      cases List.replicate k ['.', '.'] ++ s.names.reverse with
      | nil => exact Or.inl rfl
      | cons second rest => exact Or.inr ⟨_, by rw [List.intercalate_cons_cons]; rfl⟩

theorem segmentsOf_names (text : List Char) :
    ∀ name ∈ (lexicalWalk (segmentsOf text)).names, IsPathName name ∧ '/' ∉ name := by
  intro name hname
  obtain ⟨hmember, hproper⟩ := names_lexicalWalk hname
  exact ⟨hproper, (of_mem_splitOn name hmember).1⟩

/-- The canonical text of a path is that of where its text leads to, with the
blanks around it taken off. -/
theorem canonicalRelpath_eq (path : String) :
    canonicalRelpath path =
      if rstrip (lstrip path.toList) = [] then none
      else
        match lexicalTarget (rstrip (lstrip path.toList)) with
        | .inside names => some (String.ofList (joinPath names))
        | _ => none := by
  have hraw : (pyStrip (String.ofList (withSlashes path.toList))).toList =
      withSlashes (rstrip (lstrip path.toList)) := by
    rw [toList_pyStrip, String.toList_ofList, withSlashes_rstrip, withSlashes_lstrip]
  generalize rstrip (lstrip path.toList) = text at hraw ⊢
  have hnil : withSlashes text = [] ↔ text = [] := List.map_eq_nil_iff
  simp only [canonicalRelpath, hraw, hnil, lexicalTarget, normpath_eq]
  by_cases hempty : text = []
  · simp [hempty]
  · by_cases habsolute : (withSlashes text).head? = some '/'
    · simp [habsolute]
    · have hout := leadsOut_iff (segmentsOf_names text)
      unfold segmentsOf at hout ⊢
      simp only [hempty, habsolute, or_self, if_false]
      generalize lexicalWalk ((withSlashes text).splitOn '/') = s at hout ⊢
      rcases s with ⟨ups, names⟩
      cases ups with
      | zero =>
          rw [if_neg (fun h => hout.mp h rfl)]
          simp [comps]
      | succ k => rw [if_pos (hout.mpr (Nat.succ_ne_zero k))]

/-- A path is taken for protected if it leads to a protected place, with the
blanks around it taken off. -/
theorem isProtectedPath_iff (path : String) :
    isProtectedPath path = true ↔ (lexicalTarget (rstrip (lstrip path.toList))).IsProtected := by
  rw [isProtectedPath, canonicalRelpath_eq]
  split_ifs with hempty
  · rw [hempty]
    simp only [Option.any_none, Bool.false_eq_true, false_iff]
    intro h
    have hdot : isProtectedText (String.ofList ['.']) = true := h
    exact absurd hdot (by decide)
  · cases lexicalTarget (rstrip (lstrip path.toList)) with
    | inside names => rfl
    | absolute => simp [PathTarget.IsProtected]
    | outside => simp [PathTarget.IsProtected]

/-! ### Texts that are protected -/

/-- A protected text neither begins nor ends with a blank. -/
theorem strip_of_isProtectedText {rel : String} (h : isProtectedText rel = true) :
    lstrip rel.toList = rel.toList ∧ rstrip rel.toList = rel.toList := by
  simp only [isProtectedText, Bool.decide_or, Bool.or_eq_true, decide_eq_true_eq] at h
  rcases h with hfile | ⟨⟨rest, hfront⟩, ⟨before, hback⟩⟩
  · revert rel
    decide
  · constructor
    · rw [← hfront]
      rfl
    · have hlast : "-audit.jsonl".toList = "-audit.json".toList ++ ['l'] := rfl
      rw [← hback, hlast, ← List.append_assoc, rstrip]
      exact List.rdropWhile_concat_neg _ _ _ (by decide)

theorem not_isProtectedText_of_head {rel : String} {c : Char} (hhead : rel.toList.head? = some c)
    (hblank : isPySpace c = true) : isProtectedText rel = false := by
  rw [Bool.eq_false_iff]
  intro hprotected
  have hfirst := List.head?_dropWhile_not isPySpace rel.toList
  rw [← lstrip, (strip_of_isProtectedText hprotected).1, hhead] at hfirst
  simp [hblank] at hfirst

theorem not_isProtectedText_of_last {rel : String} {c : Char}
    (hlast : rel.toList.getLast? = some c) (hblank : isPySpace c = true) :
    isProtectedText rel = false := by
  rw [Bool.eq_false_iff]
  intro hprotected
  obtain ⟨before, hbefore⟩ := List.getLast?_eq_some_iff.mp hlast
  have hkept := (strip_of_isProtectedText hprotected).2
  rw [hbefore, rstrip, List.rdropWhile_concat_pos _ _ _ hblank] at hkept
  have hlength := (List.rdropWhile_prefix isPySpace before).length_le
  rw [hkept, List.length_append, List.length_singleton] at hlength
  omega

/-- The text of a place leads to it. -/
theorem lexicalTarget_joinPath {names : List (List Char)} (hne : names ≠ [])
    (hnames : ∀ name ∈ names, IsPathName name ∧ ∀ c ∈ name, ¬IsSeparator c) :
    lexicalTarget (joinPath names) = .inside names := by
  have hslashes : withSlashes (joinPath names) = joinPath names := by
    have hback : '\\' ∉ joinPath names := by
      rw [joinPath, if_neg hne]
      exact not_mem_intercalate (by decide) fun name hname hback =>
        (hnames name hname).2 '\\' hback (Or.inr rfl)
    exact (List.map_congr_left fun c hc => if_neg (ne_of_mem_of_not_mem hc hback)).trans
      (List.map_id _)
  have hsegments : segmentsOf (joinPath names) = names := by
    rw [segmentsOf, hslashes]
    exact splitOn_joinPath hne fun name hname hslash =>
      (hnames name hname).2 '/' hslash (Or.inl rfl)
  obtain ⟨first, rest, rfl⟩ := List.exists_cons_of_ne_nil hne
  rw [lexicalTarget_eq hsegments, lexicalWalk_names fun name hname => (hnames name hname).1,
    if_neg fun h => (hnames first List.mem_cons_self).1.ne_nil h.1]
  simp

end OpenClaw

end ForgeOS
