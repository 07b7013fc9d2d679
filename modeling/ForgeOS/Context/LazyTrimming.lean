import ForgeOS.Context.Lazy

/-!
What the lazy context is cut down to: entries go in a fixed order, the lessons
by ascending confidence and id and then the skills from the end of the menu,
and no more of them than the cap asks for. The cap is computed with floats,
which makes it a quarter of the budget as long as the budget is one.
-/

namespace ForgeOS

open Library

/-! ### The order of trimming -/

/-- The index in the order its lessons are trimmed in. -/
def trimOrder (index : List Indexed) : List Indexed :=
  index.insertionSort fun a b => a.key ≤ b.key

/-- The tokens that remain when so many entries have been trimmed. -/
def remaining (host : LazyHost) (menu : List SkillEntry) (index : List Indexed) (count : ℕ) : ℕ :=
  lazyTotal host (menu.take (menu.length - (count - index.length)))
    ((trimOrder index).drop count)

/-- A bundle is made of a menu and an index by trimming a number of entries, the
least one that leaves no more than the cap. -/
structure TrimsTo (host : LazyHost) (menu : List SkillEntry) (index : List Indexed) (cap : ℕ)
    (bundle : LazyContextBundle) (count : ℕ) : Prop where
  skillsMenu : bundle.skillsMenu = menu.take (menu.length - (count - index.length))
  lessonIndex : bundle.lessonIndex.Perm ((trimOrder index).drop count)
  inOrder : bundle.lessonIndex.Sublist index
  trimmed : bundle.trimmed =
    ((trimOrder index).take count).map (fun indexed => s!"lesson:{indexed.entry.id}") ++
      (menu.reverse.take (count - index.length)).map fun skill => s!"skill:{skill.name}"
  bound : count ≤ index.length + menu.length
  tokens : bundle.lazyTokens = remaining host menu index count
  within : remaining host menu index count ≤ cap
  needed : ∀ fewer < count, cap < remaining host menu index fewer

section Loops

variable {host : LazyHost} {budget : ℕ}

variable (host) in
theorem lazyTotal_perm (menu : List SkillEntry) {index index' : List Indexed}
    (h : index.Perm index') : lazyTotal host menu index = lazyTotal host menu index' := by
  rw [lazyTotal_eq, lazyTotal_eq, totalWeight_perm _ h]

theorem trimOrder_perm (index : List Indexed) : (trimOrder index).Perm index :=
  List.perm_insertionSort _ index

theorem trimOrder_of_leastAt {before after : List Indexed} {victim : Indexed}
    (h : LeastAt Indexed.key before victim after) :
    trimOrder (before ++ victim :: after) = victim :: trimOrder (before ++ after) :=
  insertionSort_of_leastAt h

variable (host budget) in
/-- The first loop trims the shortest prefix of the order that suffices, or the
whole index. -/
theorem trimIndex_spec (menu : List SkillEntry) {fuel : ℕ} {index : List Indexed}
    (hfuel : index.length ≤ fuel) :
    ∃ count ≤ index.length,
      (trimIndex host menu budget fuel index).1.Perm ((trimOrder index).drop count) ∧
      (trimIndex host menu budget fuel index).1.Sublist index ∧
      (trimIndex host menu budget fuel index).2 =
        ((trimOrder index).take count).map (fun indexed => s!"lesson:{indexed.entry.id}") ∧
      (∀ fewer < count, budget < lazyTotal host menu ((trimOrder index).drop fewer)) ∧
      (count < index.length →
        lazyTotal host menu ((trimOrder index).drop count) ≤ budget) := by
  induction fuel generalizing index with
  | zero =>
      obtain rfl := List.length_eq_zero_iff.mp (Nat.le_zero.mp hfuel)
      exact ⟨0, le_rfl, .refl [], .slnil, rfl, nofun, nofun⟩
  | succ fuel ih =>
      have hwhole := lazyTotal_perm host menu (trimOrder_perm index)
      rw [trimIndex]
      by_cases hover : budget < lazyTotal host menu index
      · rw [if_pos hover]
        cases hleast : firstLeast Indexed.key index with
        | none =>
            rw [firstLeast_eq_none] at hleast
            subst hleast
            exact ⟨0, le_rfl, .refl [], .slnil, rfl, nofun, nofun⟩
        | some victim =>
            obtain ⟨before, after, rfl, hat⟩ := leastAt_of_firstLeast hleast
            dsimp only
            rw [removeEntry_of_leastAt hat]
            have hshorter : (before ++ victim :: after).length = (before ++ after).length + 1 := by
              simp only [List.length_append, List.length_cons]
              omega
            have hless : (before ++ after).length ≤ fuel := by omega
            obtain ⟨count, hcount, hperm, hsublist, hnames, hneeded, henough⟩ := ih hless
            rw [trimOrder_of_leastAt hat] at hwhole ⊢
            refine ⟨count + 1, by omega, hperm, ?_, ?_, ?_, ?_⟩
            · exact hsublist.trans ((List.sublist_cons_self victim after).append_left before)
            · rw [hnames, List.take_succ_cons, List.map_cons]
            · intro fewer hfewer
              cases fewer with
              | zero => rwa [List.drop_zero, hwhole]
              | succ fewer => exact hneeded fewer (by omega)
            · exact fun hless => henough (by omega)
      · rw [if_neg hover]
        refine ⟨0, Nat.zero_le _, (trimOrder_perm index).symm, List.Sublist.refl index, rfl,
          nofun, fun _ => ?_⟩
        rw [List.drop_zero, hwhole]
        omega

variable (host budget) in
/-- The second loop trims the shortest end of the menu that suffices, or the
whole menu. -/
theorem trimMenu_spec (index : List Indexed) {fuel : ℕ} {menu : List SkillEntry}
    (hfuel : menu.length ≤ fuel) :
    ∃ count ≤ menu.length,
      (trimMenu host index budget fuel menu).1 = menu.take (menu.length - count) ∧
      (trimMenu host index budget fuel menu).2 =
        (menu.reverse.take count).map (fun skill => s!"skill:{skill.name}") ∧
      (∀ fewer < count, budget < lazyTotal host (menu.take (menu.length - fewer)) index) ∧
      (count < menu.length →
        lazyTotal host (menu.take (menu.length - count)) index ≤ budget) := by
  induction fuel generalizing menu with
  | zero =>
      obtain rfl := List.length_eq_zero_iff.mp (Nat.le_zero.mp hfuel)
      exact ⟨0, le_rfl, rfl, rfl, nofun, nofun⟩
  | succ fuel ih =>
      rw [trimMenu]
      by_cases hover : budget < lazyTotal host menu index
      · rw [if_pos hover]
        rcases List.eq_nil_or_concat menu with rfl | ⟨front, victim, rfl⟩
        · exact ⟨0, le_rfl, rfl, rfl, nofun, nofun⟩
        · rw [List.concat_eq_append] at hfuel hover ⊢
          rw [List.getLast?_concat, List.dropLast_concat]
          dsimp only
          have hlonger : (front ++ [victim]).length = front.length + 1 := by simp
          have hfront (count : ℕ) : (front ++ [victim]).take ((front ++ [victim]).length -
              (count + 1)) = front.take (front.length - count) := by
            rw [hlonger, Nat.add_sub_add_right, List.take_append_of_le_length (by omega)]
          have hless : front.length ≤ fuel := by omega
          obtain ⟨count, hcount, hmenu, hnames, hneeded, henough⟩ := ih hless
          refine ⟨count + 1, by omega, ?_, ?_, ?_, ?_⟩
          · rw [hmenu, hfront]
          · rw [hnames, List.reverse_append, List.reverse_singleton, List.singleton_append,
              List.take_succ_cons, List.map_cons]
          · intro fewer hfewer
            cases fewer with
            | zero => rwa [Nat.sub_zero, List.take_length]
            | succ fewer =>
                rw [hfront]
                exact hneeded fewer (by omega)
          · intro hless
            rw [hfront]
            exact henough (by omega)
      · rw [if_neg hover]
        refine ⟨0, Nat.zero_le _, ?_, rfl, nofun, fun _ => ?_⟩
        · rw [Nat.sub_zero, List.take_length]
        · rw [Nat.sub_zero, List.take_length]
          omega

variable (host budget) in
/-- Both loops together trim the shortest prefix of the whole order that
suffices. -/
theorem trimmedBundle_trims (stageId : String) (tokenBudget : Int) (menu : List SkillEntry)
    (index : List Indexed) :
    ∃ count, TrimsTo host menu index budget
      (trimmedBundle host stageId tokenBudget menu index budget) count := by
  obtain ⟨lessons, hlessons, hperm, hsublist, hnames, hneeded, henough⟩ :=
    trimIndex_spec host budget menu (le_refl index.length)
  obtain ⟨skills, hskills, hmenu, hnames', hneeded', henough'⟩ :=
    trimMenu_spec host budget
      (trimIndex host menu budget index.length index).1 (le_refl menu.length)
  rw [lazyTotal_perm host _ hperm] at henough'
  simp only [lazyTotal_perm host _ hperm] at hneeded'
  have hlength : (trimOrder index).length = index.length := (trimOrder_perm index).length_eq
  -- the menu is left alone as long as there are lessons
  have hlast : skills = 0 ∨ lessons = index.length := by
    rcases Nat.eq_zero_or_pos skills with hnone | hsome
    · exact .inl hnone
    · refine .inr (le_antisymm hlessons (not_lt.mp fun hless => ?_))
      have hover := hneeded' 0 hsome
      rw [Nat.sub_zero, List.take_length] at hover
      exact absurd (henough hless) (not_le.mpr hover)
  have hbeyond : lessons + skills - index.length = skills := by omega
  have hdrop : (trimOrder index).drop (lessons + skills) = (trimOrder index).drop lessons := by
    rcases hlast with rfl | rfl
    · rfl
    · rw [List.drop_of_length_le (by omega), List.drop_of_length_le (by omega)]
  have htake : (trimOrder index).take (lessons + skills) = (trimOrder index).take lessons := by
    rcases hlast with rfl | rfl
    · rfl
    · rw [List.take_of_length_le (by omega), List.take_of_length_le (by omega)]
  refine ⟨lessons + skills, ?_, ?_, hsublist, ?_, by omega, ?_, ?_, ?_⟩
  · rw [hbeyond]
    exact hmenu
  · rw [hdrop]
    exact hperm
  · rw [htake, hbeyond, ← hnames, ← hnames']
    rfl
  · rw [remaining, hdrop, hbeyond, ← lazyTotal_perm host _ hperm, ← hmenu]
    rfl
  · rw [remaining, hdrop, hbeyond]
    rcases Nat.lt_or_ge skills menu.length with hsome | hall
    · exact henough' hsome
    · rcases hlast with hnone | hwhole
      · rcases Nat.lt_or_ge lessons index.length with hless | hevery
        · rw [hnone, Nat.sub_zero, List.take_length]
          exact henough hless
        · have hempty : menu.length - skills = 0 := by omega
          rw [hempty, List.take_zero, List.drop_of_length_le (by omega)]
          exact Nat.zero_le _
      · have hempty : menu.length - skills = 0 := by omega
        rw [hempty, List.take_zero, List.drop_of_length_le (by omega)]
        exact Nat.zero_le _
  · intro fewer hfewer
    rw [remaining]
    rcases Nat.lt_or_ge fewer lessons with hfirst | hsecond
    · have hnone : fewer - index.length = 0 := by omega
      rw [hnone, Nat.sub_zero, List.take_length]
      exact hneeded fewer hfirst
    · have hwhole : lessons = index.length := hlast.resolve_left (by omega)
      have hover := hneeded' (fewer - lessons) (by omega)
      rw [List.drop_of_length_le (by omega)] at hover ⊢
      rwa [← hwhole]

end Loops

/-! ### The cap -/

/-- A quarter of the budget, and at least one token. -/
def lazyCap (tokenBudget : Int) : ℕ := max 1 (tokenBudget.toNat / 4)

/-- Building returns a bundle that is trimmed to the cap. -/
def KeepsShare (host : LazyHost) (skills : List SkillFile) (path : String) (file : LessonFile ℚ)
    (stageId : String) (tokenBudget : Int) (menu : List SkillEntry) (index : List Indexed) :
    Prop :=
  ∃ bundle count, buildLazyContext host skills path file stageId tokenBudget = .ok bundle ∧
    TrimsTo host menu index (lazyCap tokenBudget) bundle count

section Cap

variable {host : LazyHost} {menu : List SkillEntry} {index : List Indexed}

variable (host menu index) in
/-- Trimming more leaves no more tokens. -/
theorem remaining_antitone {fewer more : ℕ} (h : fewer ≤ more) :
    remaining host menu index more ≤ remaining host menu index fewer := by
  have hmenu : (menu.take (menu.length - (more - index.length))).Sublist
      (menu.take (menu.length - (fewer - index.length))) :=
    (List.take_prefix_take_left (by omega)).sublist
  have hindex : ((trimOrder index).drop more).Sublist ((trimOrder index).drop fewer) :=
    List.drop_sublist_drop_left _ h
  exact Nat.add_le_add (totalWeight_sublist _ hmenu) (totalWeight_sublist _ hindex)

theorem TrimsTo.trimmed_length {cap count : ℕ} {bundle : LazyContextBundle}
    (h : TrimsTo host menu index cap bundle count) : bundle.trimmed.length = count := by
  have hlength : (trimOrder index).length = index.length := (trimOrder_perm index).length_eq
  have hbound := h.bound
  rw [h.trimmed, List.length_append, List.length_map, List.length_map, List.length_take,
    List.length_take, List.length_reverse, hlength]
  omega

/-- A bundle trimmed to the one bound is trimmed to the other exactly if no
number of trimmed entries leaves a total between them. -/
theorem TrimsTo.iff_of_trims {budget cap count : ℕ} {bundle : LazyContextBundle}
    (h : TrimsTo host menu index budget bundle count) :
    (∃ other, TrimsTo host menu index cap bundle other) ↔
      ∀ trimmed, remaining host menu index trimmed ≤ budget ↔
        remaining host menu index trimmed ≤ cap := by
  constructor
  · rintro ⟨other, hother⟩ trimmed
    obtain rfl : other = count := hother.trimmed_length.symm.trans h.trimmed_length
    rcases Nat.lt_or_ge trimmed other with hless | hmore
    · exact iff_of_false (not_le.mpr (h.needed trimmed hless))
        (not_le.mpr (hother.needed trimmed hless))
    · have hfewer := remaining_antitone host menu index hmore
      exact iff_of_true (hfewer.trans h.within) (hfewer.trans hother.within)
  · intro hbetween
    refine ⟨count, { h with within := (hbetween count).mp h.within, needed := ?_ }⟩
    intro fewer hfewer
    exact not_le.mp fun hle => not_le.mpr (h.needed fewer hfewer) ((hbetween fewer).mpr hle)

/-- The lessons kept and those trimmed are the lessons of the index. -/
theorem TrimsTo.lessons_perm {cap count : ℕ} {bundle : LazyContextBundle}
    (h : TrimsTo host menu index cap bundle count) :
    (bundle.lessonIndex ++ (trimOrder index).take count).Perm index := by
  have hdivided := (h.lessonIndex.append_right ((trimOrder index).take count)).trans
    List.perm_append_comm
  rw [List.take_append_drop] at hdivided
  exact hdivided.trans (trimOrder_perm index)

/-- The skills kept, and then those trimmed from the end, are the menu. -/
theorem TrimsTo.skills_append {cap count : ℕ} {bundle : LazyContextBundle}
    (h : TrimsTo host menu index cap bundle count) :
    bundle.skillsMenu ++ (menu.reverse.take (count - index.length)).reverse = menu := by
  rw [h.skillsMenu, List.reverse_take, List.reverse_reverse, List.length_reverse,
    List.take_append_drop]

/-- Skills are trimmed only when all the lessons have been. -/
theorem TrimsTo.lessons_first {cap count : ℕ} {bundle : LazyContextBundle}
    (h : TrimsTo host menu index cap bundle count) (hskills : bundle.skillsMenu ≠ menu) :
    bundle.lessonIndex = [] := by
  have hlength : (trimOrder index).length = index.length := (trimOrder_perm index).length_eq
  have hmore : index.length ≤ count := by
    by_contra hless
    apply hskills
    have hnone : count - index.length = 0 := by omega
    rw [h.skillsMenu, hnone, Nat.sub_zero, List.take_length]
  have hkept := h.lessonIndex
  rw [List.drop_of_length_le (by omega)] at hkept
  exact hkept.eq_nil

end Cap

/-! ### Budgets as floats -/

/-- Up to `2 ^ 53` every integer is a double. -/
theorem nearestDouble_of_le {value : ℕ} (h : value ≤ 2 ^ 53) : nearestDouble value = value := by
  rcases Nat.lt_or_ge value (2 ^ 53) with hless | hmore
  · have hlog : value.log2 - 52 = 0 := by
      rcases Nat.eq_zero_or_pos value with rfl | hpos
      · rfl
      · have hbits := (Nat.log2_lt hpos.ne').mpr hless
        omega
    simp [nearestDouble, hlog, Nat.mod_one]
  · rw [le_antisymm h hmore]
    decide

theorem lazyBudget_of_le {tokenBudget : ℕ} (h : tokenBudget ≤ 2 ^ 53) :
    lazyBudget tokenBudget = .ok (max 1 (tokenBudget / 4)) := by
  have hlog : ¬1024 ≤ tokenBudget.log2 := by
    rcases Nat.eq_zero_or_pos tokenBudget with rfl | hpos
    · decide
    · have hbits := (Nat.log2_lt hpos.ne').mpr (lt_of_le_of_lt h (by decide : 2 ^ 53 < 2 ^ 54))
      omega
  rw [lazyBudget, nearestDouble_of_le h]
  exact if_neg hlog

/-- Rounding keeps a number among those with as many bits or more. -/
theorem log2_le_log2_nearestDouble {value : ℕ} (h : value ≠ 0) :
    value.log2 ≤ (nearestDouble value).log2 := by
  have hpower : 2 ^ value.log2 ≤ value := Nat.log2_self_le h
  have hunit : 2 ^ (value.log2 - 52) ∣ 2 ^ value.log2 := Nat.pow_dvd_pow 2 (Nat.sub_le _ _)
  have hdown : 2 ^ value.log2 ≤ value / 2 ^ (value.log2 - 52) * 2 ^ (value.log2 - 52) :=
    calc 2 ^ value.log2
        = 2 ^ value.log2 / 2 ^ (value.log2 - 52) * 2 ^ (value.log2 - 52) :=
          (Nat.div_mul_cancel hunit).symm
      _ ≤ value / 2 ^ (value.log2 - 52) * 2 ^ (value.log2 - 52) :=
          Nat.mul_le_mul_right _ (Nat.div_le_div_right hpower)
  have hkept : 2 ^ value.log2 ≤ nearestDouble value := by
    unfold nearestDouble
    dsimp only
    split
    · exact hdown.trans (Nat.mul_le_mul_right _ (Nat.le_succ _))
    · exact hdown
  have hpositive : 0 < 2 ^ value.log2 := Nat.two_pow_pos _
  exact (Nat.le_log2 (by omega)).mpr hkept

theorem lazyBudget_of_overflow {tokenBudget : ℕ} (h : 1024 ≤ tokenBudget.log2) :
    lazyBudget tokenBudget = .error .overflowError := by
  have hne : tokenBudget ≠ 0 := by
    rintro rfl
    exact absurd h (by decide)
  exact if_pos (h.trans (log2_le_log2_nearestDouble hne))

section Share

variable {host : LazyHost} {skills : List SkillFile} {path : String} {file : LessonFile ℚ}
  {tokenBudget : Int} {menu : List SkillEntry} {document : LessonDocument ℚ}

/-- A build keeps to a quarter of its budget exactly if the budget is a float and
no total that trimming can leave lies between the quarter as a float and the
exact one. Up to `2 ^ 53` tokens the two quarters are the same. -/
theorem keepsShare_iff (hpositive : 1 ≤ tokenBudget) (hmenu : skillMenu host skills = .ok menu)
    (hload : loadLessons path file = .ok document) (stageId : String) :
    KeepsShare host skills path file stageId tokenBudget menu
        (lessonIndex document (some stageId)) ↔
      ∃ budget, lazyBudget tokenBudget.toNat = .ok budget ∧ ∀ trimmed,
        remaining host menu (lessonIndex document (some stageId)) trimmed ≤ budget ↔
          remaining host menu (lessonIndex document (some stageId)) trimmed ≤
            lazyCap tokenBudget := by
  unfold KeepsShare
  cases hbudget : lazyBudget tokenBudget.toNat with
  | error failure =>
      rw [buildLazyContext_of_budget_error hpositive hmenu hload hbudget stageId]
      exact iff_of_false nofun nofun
  | ok budget =>
      obtain ⟨count, htrims⟩ := trimmedBundle_trims host budget stageId tokenBudget menu
        (lessonIndex document (some stageId))
      rw [buildLazyContext_eq hpositive hmenu hload hbudget stageId]
      simp only [Except.ok.injEq, exists_eq_left', exists_and_left]
      exact htrims.iff_of_trims

end Share

/-- `json.dumps` of the entries of one lesson and one skill. -/
def LazyHost.short : LazyHost where
  dumps
    | .obj (("id", _) :: _) => "\x7b\"confidence\": 0.25, \"id\": \"lesson-1\", " ++
        "\"summary\": \"Pin the toolchain.\", \"tags\": []\x7d"
    | _ => "\x7b\"description\": \"Lint.\", \"name\": \"lint\"\x7d"
  str _ := "None"

/-- A budget of `2 ^ 1024` tokens makes building raise. -/
theorem not_keepsShare_huge :
    ¬KeepsShare LazyHost.short [] "lessons.yaml" .absent "srs" ((2 ^ 1024 : ℕ) : Int) [] [] := by
  have hoverflow : lazyBudget ((2 ^ 1024 : ℕ) : Int).toNat = .error .overflowError := by
    rw [Int.toNat_natCast]
    exact lazyBudget_of_overflow (by rw [Nat.log2_two_pow])
  have hpositive : (1 : Int) ≤ ((2 ^ 1024 : ℕ) : Int) := by
    exact_mod_cast Nat.one_le_two_pow
  rintro ⟨bundle, count, hbuild, -⟩
  rw [buildLazyContext_of_budget_error hpositive rfl rfl hoverflow] at hbuild
  cases hbuild

def lintSkill : SkillFile := .record "lint"
  [("name", .str "lint"), ("description", .str "Lint."), ("status", .str "approved")]

private theorem quarter_isConfidence : (0 : ℚ) ≤ mkRat 1 4 ∧ mkRat 1 4 ≤ (1 : ℚ) := by
  decide

def pinLesson : Lesson ℚ where
  id := "lesson-1"
  text := "Pin the toolchain."
  status := .approved
  confidence := ⟨mkRat 1 4, quarter_isConfidence⟩
  createdAt := "2026-01-01T10:00:00Z"
  updatedAt := "2026-01-01T10:00:00Z"

example : (buildLazyContext LazyHost.short [lintSkill] "lessons.yaml"
    (.decoded { lessons := [pinLesson] }) "srs" 100).map (fun bundle =>
      (bundle.trimmed, bundle.lazyTokens)) = .ok (["lesson:lesson-1"], 10) := by decide

theorem keepsShare_short :
    KeepsShare LazyHost.short [lintSkill] "lessons.yaml" (.decoded { lessons := [pinLesson] })
      "srs" 100 [⟨"lint", "Lint."⟩] (lessonIndex { lessons := [pinLesson] } (some "srs")) := by
  refine (keepsShare_iff (by decide) (by decide) rfl "srs").mpr ?_
  exact ⟨lazyCap 100, lazyBudget_of_le (by decide), fun _ => Iff.rfl⟩

end ForgeOS
