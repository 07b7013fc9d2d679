import ForgeOS.Adapters.OpenClawPaths

/-!
What the guard of the protected paths sees of a path. Segments that make no
difference to where a path leads make none to the guard, as long as they are
inside of it. The blanks in front of a path are another matter: they are taken
off where they stand in front, and are part of a name behind a first segment.
-/

namespace ForgeOS

open Library

namespace OpenClaw

/-! ### Respellings -/

/-- A text a further segment can be put behind: nothing, or something that ends
with a separator. -/
def EndsSegment (text : List Char) : Prop :=
  text = [] ∨ ∃ before c, text = before ++ [c] ∧ IsSeparator c

/-- A name without separators in it. -/
structure IsName (text : List Char) : Prop where
  proper : IsPathName text
  noSeparator : ∀ c ∈ text, ¬IsSeparator c

/-- The respellings of a path: `./` and `a/../` inserted in front of segments,
separators doubled inside, and written as backslashes. -/
inductive Respells (path : List Char) : List Char → Prop
  | refl : Respells path path
  | dot {before after : List Char} : Respells path (before ++ after) → EndsSegment before →
      Respells path (before ++ "./".toList ++ after)
  | detour {before name after : List Char} : Respells path (before ++ after) →
      EndsSegment before → IsName name →
      Respells path (before ++ name ++ "/../".toList ++ after)
  | double {before after : List Char} {c : Char} : Respells path (before ++ c :: after) →
      IsSeparator c → before ≠ [] → after ≠ [] → Respells path (before ++ c :: c :: after)
  | backslash {before after : List Char} : Respells path (before ++ '/' :: after) →
      Respells path (before ++ '\\' :: after)

/-- What stands in front of a segment comes apart from it. -/
theorem EndsSegment.split {before : List Char} (h : EndsSegment before) :
    ∃ front, ∀ after, segmentsOf (before ++ after) = front ++ segmentsOf after ∧
      rstrip (before ++ after) = before ++ rstrip after := by
  rcases h with rfl | ⟨text, c, rfl, hc⟩
  · exact ⟨[], fun after => ⟨rfl, rfl⟩⟩
  · refine ⟨segmentsOf text, fun after => ⟨?_, ?_⟩⟩
    · rw [List.append_assoc, List.singleton_append, segmentsOf_append hc]
    · rw [List.append_assoc, List.singleton_append, rstrip_append (isPySpace_separator hc),
        List.append_assoc, List.singleton_append]

/-! ### What a respelling becomes -/

/-- Two lists of segments a walk from anywhere makes the same of. -/
def SameWalk (texts others : List (List Char)) : Prop :=
  ∀ s : PathWalk (List Char), s.walk (texts.map pathSegment) = s.walk (others.map pathSegment)

/-- What a respelling of a path has become, segment for segment: its first
segment is still that of the path, or one that was put in front of it. -/
inductive Respelled (first : List Char) (rest : List (List Char)) :
    List (List Char) → Prop
  | same {others : List (List Char)} : SameWalk others rest → Respelled first rest (first :: others)
  | dot {others : List (List Char)} : SameWalk others (first :: rest) →
      Respelled first rest (['.'] :: others)
  | detour {name : List Char} {others : List (List Char)} : IsPathName name →
      (∀ other, ∀ s : PathWalk (List Char), (s.step (.name other)).walk (others.map pathSegment) =
        s.walk ((first :: rest).map pathSegment)) →
      Respelled first rest (name :: others)

/-- The segments that are inserted: they lead nowhere. -/
inductive Inserted : List (List Char) → Prop
  | empty : Inserted [[]]
  | dot : Inserted [['.']]
  | detour {name : List Char} : IsPathName name → Inserted [name, ['.', '.']]

variable {first : List Char} {rest : List (List Char)}

theorem Inserted.sameWalk {texts : List (List Char)} (h : Inserted texts)
    (front back : List (List Char)) : SameWalk (front ++ texts ++ back) (front ++ back) := by
  intro s
  have hnowhere (t : PathWalk (List Char)) : t.walk (texts.map pathSegment) = t := by
    cases h with
    | empty => rfl
    | dot => rfl
    | detour hname =>
        simp only [List.map_cons, List.map_nil, pathSegment_of_isPathName hname,
          PathWalk.walk_cons, PathWalk.walk_nil]
        rfl
  simp only [List.map_append, PathWalk.walk_append, hnowhere]

theorem Respelled.sameWalk {texts : List (List Char)} (h : Respelled first rest texts) :
    SameWalk texts (first :: rest) := by
  intro s
  cases h with
  | same hothers => exact hothers _
  | dot hothers => exact hothers s
  | detour hname hothers =>
      rw [List.map_cons, PathWalk.walk_cons, pathSegment_of_isPathName hname]
      exact hothers _ s

/-- Inserted behind the first segment. -/
theorem Respelled.behind {head : List Char} {others changed : List (List Char)}
    (h : Respelled first rest (head :: others)) (hchanged : SameWalk changed others) :
    Respelled first rest (head :: changed) := by
  cases h with
  | same hothers => exact .same fun s => (hchanged s).trans (hothers s)
  | dot hothers => exact .dot fun s => (hchanged s).trans (hothers s)
  | detour hname hothers => exact .detour hname fun other s => (hchanged _).trans (hothers other s)

theorem Respelled.insert {front back texts : List (List Char)}
    (h : Respelled first rest (front ++ back)) (htexts : Inserted texts)
    (hfront : front ≠ [] ∨ texts ≠ [[]]) : Respelled first rest (front ++ texts ++ back) := by
  cases front with
  | cons head others => exact h.behind (htexts.sameWalk others back)
  | nil =>
      cases htexts with
      | empty => simp at hfront
      | dot => exact .dot h.sameWalk
      | detour hname => exact .detour hname fun other s => h.sameWalk s

theorem respelled_of_respells {path spelling : List Char} (h : Respells path spelling)
    (hpath : segmentsOf (rstrip path) = first :: rest) :
    Respelled first rest (segmentsOf (rstrip spelling)) := by
  induction h with
  | refl => exact hpath ▸ .same fun s => rfl
  | @dot before after hspells hbefore ih =>
      obtain ⟨front, hfront⟩ := hbefore.split
      have htext : before ++ "./".toList ++ after = before ++ ['.'] ++ '/' :: after := by simp
      rw [(hfront after).2, (hfront _).1] at ih
      rw [htext, rstrip_append rfl, segmentsOf_append (Or.inl rfl), (hfront ['.']).1]
      exact ih.insert .dot (Or.inr (by decide))
  | @detour before name after hspells hbefore hname ih =>
      obtain ⟨front, hfront⟩ := hbefore.split
      have htext : before ++ name ++ "/../".toList ++ after =
          before ++ name ++ '/' :: ['.', '.'] ++ '/' :: after := by simp
      have hdots : segmentsOf ['.', '.'] = [['.', '.']] := rfl
      rw [(hfront after).2, (hfront _).1] at ih
      rw [htext, rstrip_append rfl, segmentsOf_append (Or.inl rfl), segmentsOf_append (Or.inl rfl),
        (hfront name).1, segmentsOf_name hname.noSeparator, hdots, List.append_assoc front]
      exact ih.insert (.detour hname.proper) (Or.inr (by simp))
  | @double before after c hspells hc hbefore hafter ih =>
      have hspace := isPySpace_separator hc
      rw [rstrip_append hspace, segmentsOf_append hc] at ih
      have hblank : rstrip (c :: after) = c :: rstrip after := @rstrip_append [] _ _ hspace
      have hsegments : segmentsOf (c :: rstrip after) = [[]] ++ segmentsOf (rstrip after) :=
        @segmentsOf_append [] _ _ hc
      rw [rstrip_append hspace, segmentsOf_append hc, hblank, hsegments, ← List.append_assoc]
      exact ih.insert .empty (Or.inl (List.splitOn_ne_nil _ _))
  | @backslash before after hspells ih =>
      rw [rstrip_append rfl, segmentsOf_append (Or.inl rfl)] at ih
      rwa [rstrip_append rfl, segmentsOf_append (Or.inr rfl)]

/-! ### What the guard answers -/

def LeadsToProtected (s : PathWalk (List Char)) : Prop :=
  s.ups = 0 ∧ isProtectedText (String.ofList (joinPath s.names.reverse)) = true

theorem isProtected_of_segments {text : List Char} (h : segmentsOf text = first :: rest) :
    (lexicalTarget text).IsProtected ↔
      first ≠ [] ∧ LeadsToProtected (lexicalWalk (first :: rest)) := by
  rw [lexicalTarget_eq h]
  by_cases hnil : first = []
  · subst hnil
    cases rest with
    | nil =>
        simp only [ne_eq, not_true, and_false, if_false, false_and, iff_false]
        intro hdot
        have hprotected : isProtectedText (String.ofList ['.']) = true := hdot
        exact absurd hprotected (by decide)
    | cons second others => simp [PathTarget.IsProtected]
  · simp only [hnil, false_and, if_false, ne_eq, not_false_eq_true, true_and, LeadsToProtected]
    rcases lexicalWalk (first :: rest) with ⟨ups, names⟩
    cases ups with
    | zero => simp [PathTarget.IsProtected]
    | succ k => simp [PathTarget.IsProtected]

/-- The guard reads the first segment without the blanks in front of it. -/
theorem isProtectedPath_of_segments {path : String}
    (h : segmentsOf (rstrip path.toList) = first :: rest) :
    isProtectedPath path = true ↔
      lstrip first ≠ [] ∧ LeadsToProtected (lexicalWalk (lstrip first :: rest)) := by
  rw [isProtectedPath_iff, ← lstrip_rstrip]
  exact isProtected_of_segments (segmentsOf_lstrip h)

/-- What goes up from any name it finds goes out where there is none. -/
theorem ups_ne_zero_of_detour {others : List (List Char)}
    (h : ∀ other, ∀ s : PathWalk (List Char),
      (s.step (.name other)).walk (others.map pathSegment) =
        s.walk ((first :: rest).map pathSegment))
    {s : PathWalk (List Char)} (hs : s.names = []) :
    (s.walk (others.map pathSegment)).ups ≠ 0 := by
  obtain ⟨ups, names⟩ := s
  obtain rfl : names = [] := hs
  rcases PathWalk.walk_outermost (others.map pathSegment) ups [] with
    ⟨names, -, hkept⟩ | ⟨hups, -⟩
  · have hsame : PathWalk.mk ups (names ++ [[]]) = ⟨ups, names ++ [['.']]⟩ :=
      ((hkept []).symm.trans (h [] ⟨ups, []⟩)).trans
        ((h ['.'] ⟨ups, []⟩).symm.trans (hkept ['.']))
    simp at hsame
  · exact Nat.ne_of_gt (Nat.lt_of_le_of_lt (Nat.zero_le _) hups)

/-- A respelling is protected if the path is, read as the guard reads it or
with the blanks in front of it kept; or it is not, for its own blanks. -/
theorem isProtectedPath_respelled {path spelling : String}
    (hspells : Respells path.toList spelling.toList)
    (hpath : segmentsOf (rstrip path.toList) = first :: rest) :
    (isProtectedPath spelling = true ↔ isProtectedPath path = true) ∨
    (isProtectedPath spelling = true ↔ LeadsToProtected (lexicalWalk (first :: rest))) ∨
    isProtectedPath spelling = false ∧ lstrip spelling.toList ≠ spelling.toList := by
  have hrespelled := respelled_of_respells hspells hpath
  generalize hsegments : segmentsOf (rstrip spelling.toList) = segments at hrespelled
  cases hrespelled with
  | @same others hothers =>
      refine Or.inl ?_
      rw [isProtectedPath_of_segments hsegments, isProtectedPath_of_segments hpath, lexicalWalk,
        lexicalWalk, List.map_cons, List.map_cons, PathWalk.walk_cons, PathWalk.walk_cons, hothers]
  | @dot others hothers =>
      refine Or.inr (Or.inl ?_)
      have hwalk : lexicalWalk (['.'] :: others) = lexicalWalk (first :: rest) :=
        hothers PathWalk.start
      have hdot : lstrip ['.'] = ['.'] := rfl
      rw [isProtectedPath_of_segments hsegments, hdot, hwalk]
      exact and_iff_right (List.cons_ne_nil _ _)
  | @detour name others hname hothers =>
      by_cases hproper : IsPathName (lstrip name)
      · refine Or.inr (Or.inl ?_)
        have hwalk : lexicalWalk (lstrip name :: others) = lexicalWalk (first :: rest) := by
          rw [lexicalWalk, List.map_cons, PathWalk.walk_cons, pathSegment_of_isPathName hproper]
          exact hothers _ PathWalk.start
        rw [isProtectedPath_of_segments hsegments, hwalk]
        exact and_iff_right hproper.ne_nil
      · refine Or.inr (Or.inr ⟨?_, fun hblank => ?_⟩)
        · rw [Bool.eq_false_iff, ne_eq, isProtectedPath_of_segments hsegments]
          rintro ⟨hne, hups, -⟩
          by_cases hdot : lstrip name = ['.']
          · rw [hdot] at hups
            exact ups_ne_zero_of_detour hothers (s := PathWalk.start) rfl hups
          · by_cases hdots : lstrip name = ['.', '.']
            · rw [hdots] at hups
              exact ups_ne_zero_of_detour hothers (s := ⟨1, []⟩) rfl hups
            · exact hproper ⟨hne, hdot, hdots⟩
        · have hkept : segmentsOf (lstrip (rstrip spelling.toList)) = name :: others := by
            rw [lstrip_rstrip, hblank, hsegments]
          rw [segmentsOf_lstrip hsegments] at hkept
          rw [(List.cons.inj hkept).1] at hproper
          exact hproper hname

theorem isName_blank : IsName [' '] := by
  refine ⟨⟨by decide, by decide, by decide⟩, fun c hc => ?_⟩
  rw [List.mem_singleton.mp hc]
  exact not_or.mpr ⟨by decide, by decide⟩

/-- A detour through a blank makes the guard take a path for absolute. -/
theorem isProtectedPath_blank (text : List Char) :
    isProtectedPath (String.ofList ([' '] ++ '/' :: text)) = false := by
  have hsegments : segmentsOf (rstrip (String.ofList ([' '] ++ '/' :: text)).toList) =
      [' '] :: segmentsOf (rstrip text) := by
    rw [String.toList_ofList, rstrip_append rfl, segmentsOf_append (Or.inl rfl)]
    rfl
  rw [Bool.eq_false_iff, ne_eq, isProtectedPath_of_segments hsegments]
  exact fun h => h.1 rfl

/-- Behind a `./` the blanks of a path are kept. -/
theorem isProtectedPath_dot {text : List Char} (h : segmentsOf (rstrip text) = first :: rest) :
    isProtectedPath (String.ofList (['.'] ++ '/' :: text)) = true ↔
      LeadsToProtected (lexicalWalk (first :: rest)) := by
  have hsegments : segmentsOf (rstrip (String.ofList (['.'] ++ '/' :: text)).toList) =
      ['.'] :: first :: rest := by
    rw [String.toList_ofList, rstrip_append rfl, segmentsOf_append (Or.inl rfl), h]
    rfl
  rw [isProtectedPath_of_segments hsegments]
  exact and_iff_right (List.cons_ne_nil _ _)

/-- A relative path: it does not begin with a separator. -/
structure RelativePath where
  text : String
  relative : ∀ c ∈ text.toList.head?, ¬IsSeparator c

namespace RelativePath

variable (path : RelativePath)

theorem not_absolute : (withSlashes (rstrip path.text.toList)).head? ≠ some '/' := by
  intro hslash
  rw [withSlashes, List.head?_map, Option.map_eq_some_iff] at hslash
  obtain ⟨c, hc, hseparator⟩ := hslash
  obtain ⟨blanks, hblanks⟩ := List.rdropWhile_prefix isPySpace path.text.toList
  have hhead : c ∈ path.text.toList.head? := by
    rw [← hblanks, List.head?_append]
    change _ ∈ ((rstrip path.text.toList).head?).or blanks.head?
    simp [hc]
  refine path.relative c hhead ?_
  split_ifs at hseparator with hback
  · exact Or.inr hback
  · exact Or.inl hseparator

/-- Where a relative path leads, with the blanks in front of it kept. -/
theorem isProtected_iff (hpath : segmentsOf (rstrip path.text.toList) = first :: rest) :
    (lexicalTarget (rstrip path.text.toList)).IsProtected ↔
      LeadsToProtected (lexicalWalk (first :: rest)) := by
  rw [isProtected_of_segments hpath, and_iff_right_of_imp]
  rintro ⟨-, hprotected⟩ rfl
  by_cases hrest : rest = []
  · subst hrest
    have hdot : isProtectedText (String.ofList ['.']) = true := hprotected
    exact absurd hdot (by decide)
  · exact path.not_absolute ((absolute_iff hpath).mpr ⟨rfl, hrest⟩)

/-- Spellings that begin with no blank are answered alike. -/
theorem isProtectedPath_eq {spelling : String} (hspells : Respells path.text.toList spelling.toList)
    (hpath : lstrip path.text.toList = path.text.toList)
    (hspelling : lstrip spelling.toList = spelling.toList) :
    isProtectedPath spelling = isProtectedPath path.text := by
  obtain ⟨first, rest, hsegments⟩ :=
    List.exists_cons_of_ne_nil (List.splitOn_ne_nil '/' (withSlashes (rstrip path.text.toList)))
  rw [Bool.eq_iff_iff]
  rcases isProtectedPath_respelled hspells hsegments with hsame | hkept | ⟨-, hblank⟩
  · exact hsame
  · rw [hkept, ← path.isProtected_iff hsegments, isProtectedPath_iff, hpath]
  · exact absurd hspelling hblank

/-- All respellings of a path are answered alike exactly if the path leads to
no protected place, whether the blanks in front of it are kept or taken off. -/
theorem respellings_iff :
    (∀ spelling : String, Respells path.text.toList spelling.toList →
      isProtectedPath spelling = isProtectedPath path.text) ↔
    ¬(lexicalTarget (rstrip path.text.toList)).IsProtected ∧
      ¬(lexicalTarget (rstrip (lstrip path.text.toList))).IsProtected := by
  obtain ⟨first, rest, hsegments⟩ :=
    List.exists_cons_of_ne_nil (List.splitOn_ne_nil '/' (withSlashes (rstrip path.text.toList)))
  rw [path.isProtected_iff hsegments, ← isProtectedPath_iff]
  constructor
  · intro hall
    have hblank : Respells path.text.toList
        (String.ofList ([' '] ++ '/' :: ("../".toList ++ path.text.toList))).toList := by
      rw [String.toList_ofList]
      exact @Respells.detour _ [] _ _ .refl (Or.inl rfl) isName_blank
    have hdot : Respells path.text.toList
        (String.ofList (['.'] ++ '/' :: path.text.toList)).toList := by
      rw [String.toList_ofList]
      exact @Respells.dot _ [] _ .refl (Or.inl rfl)
    have hstripped : isProtectedPath path.text = false :=
      (hall _ hblank).symm.trans (isProtectedPath_blank _)
    rw [← isProtectedPath_dot hsegments, hall _ hdot, hstripped]
    exact ⟨Bool.false_ne_true, Bool.false_ne_true⟩
  · rintro ⟨hkept, hstripped⟩ spelling hspells
    rw [Bool.eq_iff_iff]
    rcases isProtectedPath_respelled hspells hsegments with hsame | hanswer | ⟨hanswer, -⟩
    · exact hsame
    · rw [hanswer]
      exact iff_of_false hkept hstripped
    · rw [hanswer]
      exact iff_of_false Bool.false_ne_true hstripped

end RelativePath

/-! ### Insights -/

/-- What `sync_insights_back` takes from Python's library. -/
structure InsightHost where
  /-- `json.dumps(insight, ensure_ascii=False)`. -/
  jsonDump : JsonObject → String
  /-- `str(value)`. -/
  strValue : Json → String

/-- The lines of `insights.jsonl`, and what has been accepted in a call. -/
structure InsightLog where
  lines : List String
  accepted : List String

def refusesInsight (insight : JsonObject) : Bool :=
  match Dict.get? insight "target" with
  | some (.str target) =>
      if pyStrip target = "" then false
      else
        match canonicalRelpath target with
        | none => true
        | some rel => isProtectedPath rel
  | _ => false

namespace InsightHost

variable (host : InsightHost)

def line (insight : JsonObject) : String := host.jsonDump insight ++ "\n"

/-- `str(insight.get("id") or insight.get("title") or "")`. -/
def title (insight : JsonObject) : String :=
  host.strValue ((((Dict.get? insight "id").getD .null).or
    ((Dict.get? insight "title").getD .null)).or (.str ""))

def syncInsight (log : InsightLog) (insight : JsonObject) : InsightLog :=
  if refusesInsight insight then log
  else ⟨log.lines ++ [host.line insight], log.accepted ++ [host.title insight]⟩

/-- `sync_insights_back`, with the lines there are. -/
def syncInsightsBack (lines : List String) (insights : List JsonObject) : InsightLog :=
  insights.foldl host.syncInsight ⟨lines, []⟩

/-- The accepted insights are appended once and in order, and none of them has
a target that leads to a protected place or out of the project, with the blanks
around it or without them. -/
def SyncsSafely (lines : List String) (insights : List JsonObject) : Prop :=
  ∃ accepted : List JsonObject, accepted.Sublist insights ∧
    host.syncInsightsBack lines insights =
      ⟨lines ++ accepted.map host.line, accepted.map host.title⟩ ∧
    ∀ insight ∈ accepted, ∀ target : String, Dict.get? insight "target" = some (.str target) →
      pyStrip target ≠ "" →
        (lexicalTarget target.toList).Safe ∧
          (lexicalTarget (rstrip (lstrip target.toList))).Safe

theorem foldl_syncInsight (insights : List JsonObject) (log : InsightLog) :
    insights.foldl host.syncInsight log =
      ⟨log.lines ++ (insights.filter fun insight => !refusesInsight insight).map host.line,
        log.accepted ++
          (insights.filter fun insight => !refusesInsight insight).map host.title⟩ := by
  induction insights generalizing log with
  | nil => simp
  | cons insight rest ih =>
      rw [List.foldl_cons, ih, syncInsight]
      cases hrefused : refusesInsight insight with
      | true => simp [hrefused]
      | false => simp [hrefused]

end InsightHost

/-! ### Safe targets -/

theorem safe_iff (text : List Char) :
    (lexicalTarget text).Safe ↔
      (withSlashes text).head? ≠ some '/' ∧ (lexicalWalk (segmentsOf text)).ups = 0 ∧
        isProtectedText
          (String.ofList (joinPath (lexicalWalk (segmentsOf text)).names.reverse)) = false := by
  unfold lexicalTarget
  split_ifs with habsolute
  · simp [PathTarget.Safe, habsolute]
  · rcases lexicalWalk (segmentsOf text) with ⟨ups, names⟩
    cases ups with
    | zero => simp [PathTarget.Safe, habsolute]
    | succ k => simp [PathTarget.Safe]

theorem isPathName_blank_first {c : Char} (hspace : isPySpace c = true) (chars : List Char) :
    IsPathName (c :: chars) := by
  have hdot : c ≠ '.' := by
    rintro rfl
    exact absurd hspace (by decide)
  exact ⟨List.cons_ne_nil _ _, fun h => hdot (List.cons.inj h).1,
    fun h => hdot (List.cons.inj h).1⟩

/-- A target that is safe without the blanks in front of it is safe. -/
theorem safe_of_safe_lstrip {text : List Char} (h : (lexicalTarget (lstrip text)).Safe) :
    (lexicalTarget text).Safe := by
  cases text with
  | nil => exact h
  | cons c chars =>
      cases hspace : isPySpace c with
      | false => rwa [lstrip, List.dropWhile_cons_of_neg (by simp [hspace])] at h
      | true =>
          have hseparator : ¬IsSeparator c := fun hc => by
            rw [isPySpace_separator hc] at hspace
            cases hspace
          obtain ⟨hslash, hback⟩ := not_or.mp hseparator
          have hslashes : withSlashes (c :: chars) = c :: withSlashes chars := by
            rw [withSlashes, List.map_cons, if_neg hback]
            rfl
          obtain ⟨first, rest, hsplit⟩ :=
            List.exists_cons_of_ne_nil (List.splitOn_ne_nil '/' (withSlashes chars))
          have hsegments : segmentsOf (c :: chars) = (c :: first) :: rest := by
            rw [segmentsOf, hslashes, List.splitOn_cons_eq_if_modifyHead, if_neg (by simpa), hsplit]
            rfl
          have hwalk : lexicalWalk ((c :: first) :: rest) =
              PathWalk.walk ⟨0, [c :: first]⟩ (rest.map pathSegment) := by
            rw [lexicalWalk, List.map_cons, PathWalk.walk_cons,
              pathSegment_of_isPathName (isPathName_blank_first hspace first)]
            rfl
          rw [safe_iff, segmentsOf_lstrip hsegments] at h
          obtain ⟨-, hups, hprotected⟩ := h
          rw [safe_iff, hsegments, hwalk, hslashes]
          refine ⟨by simpa using hslash, ?_⟩
          rcases PathWalk.walk_outermost (rest.map pathSegment) 0 [] with
            ⟨names, -, hkept⟩ | ⟨hout, hsame⟩
          · -- the first segment is kept, and no protected text begins with a blank
            have hnames := hkept (c :: first)
            rw [List.nil_append] at hnames
            rw [hnames]
            refine ⟨rfl, not_isProtectedText_of_head ?_ hspace⟩
            rw [String.toList_ofList, List.reverse_append]
            exact head?_joinPath (List.cons_ne_nil _ _) names.reverse
          · -- it is left, so that what it is called makes no difference
            rw [lexicalWalk, List.map_cons, PathWalk.walk_cons] at hups hprotected
            cases hfirst : pathSegment (lstrip (c :: first)) with
            | stay =>
                rw [hfirst] at hups
                exact absurd hups (Nat.ne_of_gt hout)
            | up =>
                rw [hfirst] at hups
                have hleft := PathWalk.ups_le_walk ⟨1, []⟩ (rest.map pathSegment)
                rw [show (PathWalk.walk ⟨1, []⟩ (rest.map pathSegment)).ups = 0 from hups] at hleft
                cases hleft
            | name other =>
                rw [hfirst] at hups hprotected
                rw [show PathWalk.walk ⟨0, [c :: first]⟩ (rest.map pathSegment) =
                  PathWalk.walk ⟨0, [other]⟩ (rest.map pathSegment) from hsame _ _]
                exact ⟨hups, hprotected⟩

theorem exists_last_segment (text : List Char) :
    ∃ before last, text = before ++ last ∧ EndsSegment before ∧ ∀ c ∈ last, ¬IsSeparator c := by
  induction text with
  | nil => exact ⟨[], [], rfl, Or.inl rfl, fun _ h => nomatch h⟩
  | cons c chars ih =>
      obtain ⟨before, last, rfl, hbefore, hlast⟩ := ih
      rcases hbefore with rfl | ⟨front, d, rfl, hd⟩
      · by_cases hc : IsSeparator c
        · exact ⟨[c], last, rfl, Or.inr ⟨[], c, rfl, hc⟩, hlast⟩
        · exact ⟨[], c :: last, rfl, Or.inl rfl, List.forall_mem_cons.mpr ⟨hc, hlast⟩⟩
      · exact ⟨c :: (front ++ [d]), last, rfl, Or.inr ⟨c :: front, d, rfl, hd⟩, hlast⟩

theorem lexicalWalk_concat (front : List (List Char)) (last : List Char) :
    lexicalWalk (front ++ [last]) = (lexicalWalk front).step (pathSegment last) := by
  rw [lexicalWalk, List.map_append, PathWalk.walk_append]
  rfl

/-- Likewise for the blanks behind it. -/
theorem safe_of_safe_rstrip {text : List Char} (h : (lexicalTarget (rstrip text)).Safe) :
    (lexicalTarget text).Safe := by
  obtain ⟨before, last, rfl, hbefore, hlast⟩ := exists_last_segment text
  by_cases hkept : rstrip last = last
  · obtain ⟨front, hfront⟩ := hbefore.split
    rwa [(hfront last).2, hkept] at h
  · have hblank : ∃ chars c, last = chars ++ [c] ∧ isPySpace c = true := by
      rw [rstrip, List.rdropWhile_eq_self_iff, not_forall] at hkept
      obtain ⟨hne, hspace⟩ := hkept
      exact ⟨_, _, (List.dropLast_append_getLast hne).symm, not_not.mp hspace⟩
    obtain ⟨chars, c, hlastChar, hspace⟩ := hblank
    have hname : IsPathName last := by
      refine ⟨?_, ?_, ?_⟩
      · rintro rfl
        exact hkept rfl
      · rintro rfl
        exact hkept rfl
      · rintro rfl
        exact hkept rfl
    have hstripped : ∀ c ∈ rstrip last, ¬IsSeparator c := fun c hc =>
      hlast c ((List.rdropWhile_prefix isPySpace last).subset hc)
    obtain ⟨front, hfront⟩ := hbefore.split
    rw [(hfront last).2, safe_iff, (hfront _).1, segmentsOf_name hstripped,
      lexicalWalk_concat] at h
    rw [safe_iff, (hfront _).1, segmentsOf_name hlast, lexicalWalk_concat,
      pathSegment_of_isPathName hname]
    obtain ⟨hslash, hups, -⟩ := h
    refine ⟨?_, ?_, ?_⟩
    · cases before with
      | nil =>
          rw [List.nil_append, withSlashes, List.head?_map, ne_eq, Option.map_eq_some_iff]
          rintro ⟨d, hd, hseparator⟩
          refine hlast d (List.mem_of_mem_head? hd) ?_
          split_ifs at hseparator with hback
          · exact Or.inr hback
          · exact Or.inl hseparator
      | cons d others => exact hslash
    · have hleft := (lexicalWalk front).ups_le_step (pathSegment (rstrip last))
      rw [hups] at hleft
      exact Nat.le_zero.mp hleft
    · refine not_isProtectedText_of_last ?_ hspace
      rw [String.toList_ofList]
      change (joinPath (last :: (lexicalWalk front).names).reverse).getLast? = some c
      rw [List.reverse_cons, getLast?_joinPath hname.ne_nil, hlastChar, List.getLast?_concat]

/-- The names on the way to a place inside of the project. -/
theorem names_of_inside {text : List Char} {names : List (List Char)}
    (h : lexicalTarget text = .inside names) :
    ∀ name ∈ names, IsPathName name ∧ ∀ c ∈ name, ¬IsSeparator c := by
  unfold lexicalTarget at h
  split_ifs at h
  split at h
  · rename_i inner hwalk
    obtain rfl := PathTarget.inside.inj h
    intro name hname
    have hinner : name ∈ (lexicalWalk (segmentsOf text)).names := by
      rw [hwalk]
      exact List.mem_reverse.mp hname
    obtain ⟨hsegment, hproper⟩ := names_lexicalWalk hinner
    obtain ⟨hslash, hsubset⟩ := of_mem_splitOn name hsegment
    refine ⟨hproper, fun c hc hseparator => ?_⟩
    rcases hseparator with rfl | rfl
    · exact hslash hc
    · obtain ⟨d, -, hd⟩ := List.mem_map.mp (hsubset hc)
      split_ifs at hd with hback
      · exact absurd hd (by decide)
      · exact hback hd
  · cases h

/-- What the guard lets pass is safe. -/
theorem safe_of_canonicalRelpath {target rel : String} (hrel : canonicalRelpath target = some rel)
    (hguard : isProtectedPath rel = false) :
    (lexicalTarget (rstrip (lstrip target.toList))).Safe := by
  rw [canonicalRelpath_eq] at hrel
  split_ifs at hrel with hempty
  generalize htext : rstrip (lstrip target.toList) = text at hrel ⊢
  cases htarget : lexicalTarget text with
  | absolute =>
      rw [htarget] at hrel
      cases hrel
  | outside =>
      rw [htarget] at hrel
      cases hrel
  | inside names =>
      rw [htarget] at hrel
      obtain rfl := Option.some.inj hrel
      change isProtectedText (String.ofList (joinPath names)) = false
      rw [Bool.eq_false_iff] at hguard ⊢
      intro hprotected
      refine hguard ((isProtectedPath_iff _).mpr ?_)
      obtain ⟨hfront, hback⟩ := strip_of_isProtectedText hprotected
      have hne : names ≠ [] := by
        rintro rfl
        exact absurd hprotected (by decide)
      rw [hfront, hback, String.toList_ofList,
        lexicalTarget_joinPath hne (names_of_inside htarget)]
      exact hprotected

/-! ### The guard as a whole -/

theorem syncsSafely (host : InsightHost) (lines : List String) (insights : List JsonObject) :
    host.SyncsSafely lines insights := by
  refine ⟨_, List.filter_sublist, host.foldl_syncInsight insights ⟨lines, []⟩, ?_⟩
  intro insight hinsight target htarget hblank
  have haccepted := (List.mem_filter.mp hinsight).2
  rw [refusesInsight, htarget] at haccepted
  simp only [hblank, if_false] at haccepted
  cases hrel : canonicalRelpath target with
  | none => simp [hrel] at haccepted
  | some rel =>
      have hguard : isProtectedPath rel = false := by simpa [hrel] using haccepted
      have hsafe := safe_of_canonicalRelpath hrel hguard
      exact ⟨safe_of_safe_lstrip (safe_of_safe_rstrip hsafe), hsafe⟩

/-- The guard answers all respellings of a path alike, and lets no insight pass
whose target is protected or outside. -/
def GuardHolds (host : InsightHost) (path : RelativePath) (lines : List String)
    (insights : List JsonObject) : Prop :=
  (∀ spelling : String, Respells path.text.toList spelling.toList →
    isProtectedPath spelling = isProtectedPath path.text) ∧
  host.SyncsSafely lines insights

/-- The guard holds exactly if the path leads to no protected place, whether the
blanks in front of it are kept or taken off; and it answers the spellings alike
that begin with no blank. Stripping the whole text makes another path of a first
segment that begins with a blank. -/
theorem guardHolds_iff (host : InsightHost) (path : RelativePath) (lines : List String)
    (insights : List JsonObject) :
    (GuardHolds host path lines insights ↔
      ¬(lexicalTarget (rstrip path.text.toList)).IsProtected ∧
        ¬(lexicalTarget (rstrip (lstrip path.text.toList))).IsProtected) ∧
    ∀ spelling : String, Respells path.text.toList spelling.toList →
      lstrip path.text.toList = path.text.toList → lstrip spelling.toList = spelling.toList →
        isProtectedPath spelling = isProtectedPath path.text := by
  constructor
  · rw [GuardHolds, path.respellings_iff]
    exact and_iff_left (syncsSafely host lines insights)
  · intro spelling hspells
    exact path.isProtectedPath_eq hspells

def stateFile : RelativePath where
  text := ".forge/state.json"
  relative := by
    intro c hc
    obtain rfl := Option.some.inj hc
    exact not_or.mpr ⟨by decide, by decide⟩

/-- A protected file, by way of a directory whose name is a blank. -/
theorem not_guardHolds : ¬∃ host lines insights, GuardHolds host stateFile lines insights := by
  rintro ⟨host, lines, insights, hrespellings, -⟩
  have hspells : Respells stateFile.text.toList " /../.forge/state.json".toList :=
    @Respells.detour _ [] [' '] _ .refl (Or.inl rfl) isName_blank
  exact absurd (hrespellings _ hspells) (by decide)

end OpenClaw

end ForgeOS
