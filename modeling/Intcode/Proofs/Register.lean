import Mathlib.Data.List.Find
import Intcode.Proofs.DottedName
import Intcode.Proofs.Tree

/-!
# Where a logger stands

A register is filled by entering names one after the other, and where a logger stands depends on
their order. Still, it can be told from the list of names alone: a logger stands below the nearest
logger among the names that its dots cut off, or else below the root. There is one exception. A
logger whose name begins the name of the root is not seen by those entered before it: a name entered
into a gap leaves alone whoever stands below a logger whose name begins with it, and they stand
below the root.

## Main definitions

* `Log.sees`, `Log.parent` — where a logger stands, by the names that were entered
* `Register.Placed` — what becomes of a register when a logger is placed
* `Register.Records` — the register of some names

## Main results

* `Register.placed_place`, `Register.node?_foldl_adopt` — the two parts of entering a name
* `Register.records_enter` — entering a name keeps the register right
-/

namespace Intcode.Log

variable {names : List String} {c p g x : String}

/-! ### The law of places -/

/-- Whether the logger `c` stands below `p` if nothing nearer is there: `p` was entered, and before
`c` if the name of the root begins with it. -/
def sees (names : List String) (c p : String) : Bool :=
  names.contains p && p != rootName &&
    (!p.toList.isPrefixOf rootName.toList || decide (names.idxOf p < names.idxOf c))

/-- The name above the logger `c`. -/
def parent (names : List String) (c : String) : String :=
  ((cutOff c).find? (sees names c)).getD rootName

theorem sees_iff : sees names c p = true ↔ p ∈ names ∧ p ≠ rootName ∧
    (p.toList <+: rootName.toList → names.idxOf p < names.idxOf c) := by
  rw [← List.isPrefixOf_iff_prefix]
  unfold sees
  cases p.toList.isPrefixOf rootName.toList <;> simp [and_assoc]

/-- No name with a dot begins the name of the root. -/
theorem not_begins_of_dot (dot : '.' ∈ x.toList) : ¬ x.toList <+: rootName.toList := by
  intro begins
  have : '.' ∉ rootName.toList := by decide
  exact this (begins.subset dot)

/-- A logger with a dot in its name is seen by all. -/
theorem sees_of_dot (entered : p ∈ names) (dot : '.' ∈ p.toList) : sees names c p := by
  have apart := not_begins_of_dot dot
  refine sees_iff.mpr ⟨entered, ?_, fun begins => absurd begins apart⟩
  rintro rfl
  exact apart (List.prefix_refl _)

theorem idxOf_append_of_mem (found : c ∈ names) (x : String) :
    (names ++ [x]).idxOf c = names.idxOf c := by
  rw [List.idxOf_append, if_pos found]

/-- A name more makes no difference to how `c` sees another one, or one entered before. -/
theorem sees_append (found : c ∈ names) (old : p ≠ x ∨ p ∈ names) :
    sees (names ++ [x]) c p = sees names c p := by
  rw [Bool.eq_iff_iff, sees_iff, sees_iff, List.mem_append, List.mem_singleton]
  constructor
  · rintro ⟨entered, below, early⟩
    have entered : p ∈ names := entered.elim id fun same => old.resolve_left (· same)
    rw [idxOf_append_of_mem entered, idxOf_append_of_mem found] at early
    exact ⟨entered, below, early⟩
  · rintro ⟨entered, below, early⟩
    rw [← idxOf_append_of_mem entered x, ← idxOf_append_of_mem found x] at early
    exact ⟨.inl entered, below, early⟩

/-- A new name is seen by the earlier ones, unless the name of the root begins with it. -/
theorem sees_append_self (found : c ∈ names) (fresh : x ∉ names) :
    sees (names ++ [x]) c x = true ↔ ¬ x.toList <+: rootName.toList := by
  have late : ¬ (names ++ [x]).idxOf x < (names ++ [x]).idxOf c := by
    rw [idxOf_append_of_mem found, List.idxOf_append, if_neg fresh]
    have := List.idxOf_lt_length_of_mem found
    omega
  rw [sees_iff]
  constructor
  · rintro ⟨-, -, early⟩ begins
    exact late (early begins)
  · intro apart
    refine ⟨by simp, ?_, fun begins => absurd begins apart⟩
    rintro rfl
    exact apart (List.prefix_refl _)

/-- A name that is entered sees all those entered before. -/
theorem sees_append_of_fresh (fresh : x ∉ names) (ne : p ≠ x) :
    sees (names ++ [x]) x p = true ↔ p ∈ names ∧ p ≠ rootName := by
  rw [sees_iff, List.mem_append, List.mem_singleton]
  constructor
  · rintro ⟨entered, below, -⟩
    exact ⟨entered.resolve_right ne, below⟩
  · rintro ⟨entered, below⟩
    refine ⟨.inl entered, below, fun _ => ?_⟩
    rw [idxOf_append_of_mem entered, List.idxOf_append, if_neg fresh]
    have := List.idxOf_lt_length_of_mem entered
    omega

theorem parent_cases (names : List String) (c : String) :
    (∃ p, parent names c = p ∧ p ∈ cutOff c ∧ sees names c p ∧
      ∀ q ∈ cutOff c, p.length < q.length → ¬ sees names c q) ∨
    parent names c = rootName ∧ ∀ q ∈ cutOff c, ¬ sees names c q := by
  unfold parent
  cases found : (cutOff c).find? (sees names c) with
  | none =>
    refine .inr ⟨rfl, fun q cut => ?_⟩
    exact List.find?_eq_none.mp found q cut
  | some p =>
    obtain ⟨seen, before, after, eq, unseen⟩ := List.find?_eq_some_iff_append.mp found
    refine .inl ⟨p, rfl, List.mem_of_find?_eq_some found, seen, fun q cut longer => ?_⟩
    -- The names are in the order of their lengths, so that a longer one stands before.
    have sorted := pairwise_cutOff c
    rw [eq] at cut sorted
    rcases List.mem_append.mp cut with earlier | later
    · simpa using unseen q earlier
    · obtain ⟨tail, -⟩ := List.pairwise_cons.mp (List.pairwise_append.mp sorted).2.1
      rcases List.mem_cons.mp later with rfl | later
      · exact absurd longer (Nat.lt_irrefl _)
      · exact absurd longer (Nat.lt_asymm (tail q later))

theorem parent_eq (cut : p ∈ cutOff c) (seen : sees names c p)
    (nearest : ∀ q ∈ cutOff c, p.length < q.length → ¬ sees names c q) : parent names c = p := by
  rcases parent_cases names c with ⟨q, eq, cut', seen', nearest'⟩ | ⟨-, none⟩
  · rw [eq]
    refine Above.eq_of_length_eq (above_of_mem_cutOff cut') (above_of_mem_cutOff cut) ?_
    refine Nat.le_antisymm (Nat.le_of_not_lt fun lt => ?_) (Nat.le_of_not_lt fun lt => ?_)
    · exact nearest q cut' lt seen'
    · exact nearest' p cut lt seen
  · exact absurd seen (none p cut)

theorem parent_eq_root (none : ∀ q ∈ cutOff c, ¬ sees names c q) : parent names c = rootName := by
  rcases parent_cases names c with ⟨q, -, cut, seen, -⟩ | ⟨eq, -⟩
  · exact absurd seen (none q cut)
  · exact eq

/-- A name entered later comes above `c` if it is cut off from `c`, is seen, and nothing nearer is.
-/
theorem parent_append_eq (found : c ∈ names) (fresh : x ∉ names) (cut : x ∈ cutOff c)
    (apart : ¬ x.toList <+: rootName.toList)
    (nearest : ∀ q ∈ cutOff c, x.length < q.length → ¬ sees names c q) :
    parent (names ++ [x]) c = x := by
  refine parent_eq cut ((sees_append_self found fresh).mpr apart) fun q cut' longer => ?_
  have ne : q ≠ x := by
    rintro rfl
    exact Nat.lt_irrefl _ longer
  rw [sees_append found (.inl ne)]
  exact nearest q cut' longer

/-- Otherwise a name more makes no difference to where `c` stands. -/
theorem parent_append_of_unseen (found : c ∈ names)
    (unseen : x ∉ names → x ∈ cutOff c → sees (names ++ [x]) c x →
      ∃ q ∈ cutOff c, x.length < q.length ∧ sees names c q) :
    parent (names ++ [x]) c = parent names c := by
  -- What `c` sees now it saw before, or else it saw something nearer.
  have before : ∀ q ∈ cutOff c, sees (names ++ [x]) c q →
      ∃ q' ∈ cutOff c, q.length ≤ q'.length ∧ sees names c q' := by
    intro q cut seen
    by_cases fresh : q = x ∧ x ∉ names
    · obtain ⟨rfl, fresh⟩ := fresh
      obtain ⟨q', cut', longer, seen'⟩ := unseen fresh cut seen
      exact ⟨q', cut', Nat.le_of_lt longer, seen'⟩
    · have old : q ≠ x ∨ q ∈ names := by
        by_cases same : q = x
        · exact .inr (by simpa [same] using fresh)
        · exact .inl same
      rw [sees_append found old] at seen
      exact ⟨q, cut, Nat.le_refl _, seen⟩
  rcases parent_cases names c with ⟨p, eq, cut, seen, nearest⟩ | ⟨eq, none⟩
  · rw [eq]
    refine parent_eq cut ?_ fun q cut' longer seen' => ?_
    · rwa [sees_append found (.inr (sees_iff.mp seen).1)]
    · obtain ⟨q', cut'', le, seen''⟩ := before q cut' seen'
      exact nearest q' cut'' (Nat.lt_of_lt_of_le longer le) seen''
  · rw [eq]
    refine parent_eq_root fun q cut seen => ?_
    obtain ⟨q', cut', -, seen'⟩ := before q cut seen
    exact none q' cut' seen'

/-! ### Entering a name -/

namespace Register

variable {r : Register} {node : Node} {hs : List String}

theorem node?_put_self (r : Register) (name : String) (node : Node) :
    (r.put name node).node? name = some node := by
  simp [node?, put]

theorem node?_put_of_ne (r : Register) (ne : g ≠ x) (node : Node) :
    (r.put x node).node? g = r.node? g := by
  unfold node? put
  rw [find?_replace_of_ne _ ne]

/-- Whether a name has a logger. The root always has one, but no node. -/
def isLogger (r : Register) (name : String) : Bool :=
  match r.node? name with
  | some (.logger _) => true
  | _ => false

/-- The loggers that were placed past a name. -/
def passedAt (r : Register) (name : String) : List String :=
  match r.node? name with
  | some (.gap passed) => passed
  | _ => []

theorem isLogger_iff : r.isLogger x = true ↔ ∃ above, r.node? x = some (.logger above) := by
  unfold isLogger
  split <;> simp_all

theorem mem_passedAt_iff : c ∈ r.passedAt g ↔ ∃ passed, r.node? g = some (.gap passed) ∧
    c ∈ passed := by
  unfold passedAt
  split <;> simp_all

theorem not_isLogger_of_mem_passedAt (passed : c ∈ r.passedAt g) : r.isLogger g = false := by
  obtain ⟨passed, eq, -⟩ := mem_passedAt_iff.mp passed
  unfold isLogger
  rw [eq]

theorem isLogger_put_of_ne (r : Register) (ne : g ≠ x) (node : Node) :
    (r.put x node).isLogger g = r.isLogger g := by
  unfold isLogger
  rw [node?_put_of_ne r ne]

theorem passedAt_put_of_ne (r : Register) (ne : g ≠ x) (node : Node) :
    (r.put x node).passedAt g = r.passedAt g := by
  unfold passedAt
  rw [node?_put_of_ne r ne]

theorem isLogger_put_gap (vacant : r.isLogger x = false) (passed : List String) :
    (r.put x (.gap passed)).isLogger = r.isLogger := by
  funext g
  by_cases same : g = x
  · rw [same, vacant, isLogger, node?_put_self]
  · exact isLogger_put_of_ne r same _

/-- Past a name without a logger, the logger is placed on the way to the next one. -/
theorem place_cons_of_not_isLogger (vacant : r.isLogger g = false) (name : String)
    (hs : List String) :
    r.place name (g :: hs) = (r.put g (.gap (r.passedAt g ++ [name]))).place name hs := by
  unfold isLogger at vacant
  rw [place, passedAt]
  cases found : r.node? g with
  | none => rfl
  | some node =>
    cases node with
    | logger above =>
      rw [found] at vacant
      cases vacant
    | gap passed => rfl

theorem place_cons_of_isLogger (taken : r.isLogger g) (name : String) (hs : List String) :
    r.place name (g :: hs) = r.put name (.logger g) := by
  obtain ⟨above, found⟩ := isLogger_iff.mp taken
  rw [place, found]

/-- What becomes of a register when a logger is placed below the first logger among some names: the
gaps before that one remember it, and nothing else changes. -/
structure Placed (r r' : Register) (name : String) (hs : List String) : Prop where
  self : r'.node? name = some (.logger ((hs.find? r.isLogger).getD rootName))
  logger : ∀ g ≠ name, r.isLogger g → r'.node? g = r.node? g
  vacant : ∀ g ≠ name, r.isLogger g = false → r'.isLogger g = false
  passed : ∀ g ≠ name, r.isLogger g = false → ∀ c, c ∈ r'.passedAt g ↔
    c ∈ r.passedAt g ∨ c = name ∧ g ∈ hs.takeWhile fun h => !r.isLogger h

theorem placed_put {above : String} (stops : hs.takeWhile (fun h => !r.isLogger h) = [])
    (first : (hs.find? r.isLogger).getD rootName = above) :
    Placed r (r.put x (.logger above)) x hs where
  self := by rw [node?_put_self, first]
  logger g ne _ := node?_put_of_ne r ne _
  vacant g ne vacant := by rw [isLogger_put_of_ne r ne, vacant]
  passed g ne _ c := by simp [passedAt_put_of_ne r ne, stops]

theorem placed_place (r : Register) (name : String) (apart : name ∉ hs) :
    Placed r (r.place name hs) name hs := by
  induction hs generalizing r with
  | nil => exact placed_put rfl rfl
  | cons h hs ih =>
    obtain ⟨ne, apart⟩ := not_or.mp (List.mem_cons.not.mp apart)
    cases taken : r.isLogger h with
    | true =>
      rw [place_cons_of_isLogger taken]
      exact placed_put (by simp [taken]) (by simp [taken])
    | false =>
      rw [place_cons_of_not_isLogger taken]
      -- Making a gap changes neither who is a logger nor whom the other gaps remember.
      have rest := ih (r.put h (.gap (r.passedAt h ++ [name]))) apart
      have same := isLogger_put_gap taken (r.passedAt h ++ [name])
      refine ⟨?_, fun g ne logger => ?_, fun g ne vacant => ?_, fun g ne vacant c => ?_⟩
      · rw [rest.self, same, List.find?_cons_of_neg (by simp [taken])]
      · have ne' : g ≠ h := by
          rintro rfl
          rw [taken] at logger
          cases logger
        rw [rest.logger g ne (by rwa [same]), node?_put_of_ne r ne']
      · exact rest.vacant g ne (by rwa [same])
      · rw [rest.passed g ne (by rwa [same]), same, List.takeWhile_cons_of_pos (by simp [taken])]
        by_cases same' : g = h
        · subst same'
          have passed : c ∈ passedAt (r.put g (.gap (r.passedAt g ++ [name]))) g ↔
              c ∈ r.passedAt g ∨ c = name := by
            rw [passedAt, node?_put_self]
            simp
          rw [passed]
          constructor
          · rintro ((old | new) | ⟨new, -⟩)
            · exact .inl old
            · exact .inr ⟨new, List.mem_cons_self⟩
            · exact .inr ⟨new, List.mem_cons_self⟩
          · rintro (old | ⟨new, -⟩)
            · exact .inl (.inl old)
            · exact .inl (.inr new)
        · rw [passedAt_put_of_ne r same']
          simp [same']

theorem above_of_node? {above : String} (found : r.node? c = some (.logger above)) :
    r.above c = above := by
  rw [Register.above, found]

theorem above_congr {r' : Register} (same : r'.node? c = r.node? c) : r'.above c = r.above c := by
  rw [Register.above, same, Register.above]

theorem above_put_of_ne (r : Register) (ne : g ≠ x) (node : Node) :
    (r.put x node).above g = r.above g :=
  above_congr (node?_put_of_ne r ne node)

/-- Of the loggers that were placed past a name, those move below it that do not stand below one
whose name begins with it. -/
theorem node?_foldl_adopt (name : String) (ps : List String) (r : Register) (c : String) :
    (ps.foldl (adopt name) r).node? c =
      if c ∈ ps ∧ ¬ name.toList <+: (r.above c).toList then some (.logger name)
      else r.node? c := by
  induction ps generalizing r with
  | nil => simp
  | cons p ps ih =>
    rw [List.foldl_cons, ih]
    unfold adopt
    by_cases begins : name.toList <+: (r.above p).toList
    · rw [if_pos (List.isPrefixOf_iff_prefix.mpr begins)]
      by_cases same : c = p
      · subst same
        simp [begins]
      · simp [same]
    · rw [if_neg (List.isPrefixOf_iff_prefix.not.mpr begins)]
      by_cases same : c = p
      · -- Once it has moved, it stands below the name itself and stays there.
        subst same
        have moved : (r.put c (.logger name)).above c = name := by rw [above, node?_put_self]
        simp [begins, moved, node?_put_self]
      · simp [same, above_put_of_ne r same, node?_put_of_ne r same]

theorem isLogger_foldl_adopt (name : String) {ps : List String}
    (loggers : ∀ p ∈ ps, r.isLogger p) : (ps.foldl (adopt name) r).isLogger = r.isLogger := by
  funext c
  rw [Bool.eq_iff_iff, isLogger_iff, node?_foldl_adopt]
  split
  · rename_i moved
    simp [loggers c moved.1]
  · rw [isLogger_iff]

theorem passedAt_foldl_adopt (name : String) {ps : List String}
    (loggers : ∀ p ∈ ps, r.isLogger p) (vacant : r.isLogger g = false) :
    (ps.foldl (adopt name) r).passedAt g = r.passedAt g := by
  unfold passedAt
  rw [node?_foldl_adopt, if_neg]
  rintro ⟨member, -⟩
  rw [loggers g member] at vacant
  cases vacant

/-- A name that is entered for the first time. -/
theorem enter_of_vacant (below : x ≠ rootName) (vacant : r.isLogger x = false) :
    r.enter x = ((r.passedAt x).foldl (adopt x) r).place x (cutOff x) := by
  unfold isLogger at vacant
  rw [enter, if_neg below, passedAt]
  cases found : r.node? x with
  | none => rfl
  | some node =>
    cases node with
    | logger above =>
      rw [found] at vacant
      cases vacant
    | gap passed => rfl

/-- A name that has a logger changes nothing when it is entered again. -/
theorem enter_of_isLogger (taken : x = rootName ∨ r.isLogger x) : r.enter x = r := by
  rw [enter]
  rcases taken with root | taken
  · rw [if_pos root]
  · obtain ⟨above, found⟩ := isLogger_iff.mp taken
    rw [found]
    exact ite_self r

/-- A logger stays one when names are entered. -/
theorem isLogger_enter (r : Register) (x : String) (taken : r.isLogger c) :
    (r.enter x).isLogger c := by
  by_cases old : x = rootName ∨ r.isLogger x
  · rwa [enter_of_isLogger old]
  · obtain ⟨below, vacant⟩ := not_or.mp old
    have apart : x ∉ cutOff x := fun cut => (above_of_mem_cutOff cut).ne rfl
    have placed := placed_place ((r.passedAt x).foldl (adopt x) r) x apart
    rw [enter_of_vacant below (Bool.eq_false_iff.mpr vacant)]
    have ne : c ≠ x := by
      rintro rfl
      exact vacant taken
    have moved : ((r.passedAt x).foldl (adopt x) r).isLogger c := by
      rw [isLogger_iff, node?_foldl_adopt]
      split
      · exact ⟨x, rfl⟩
      · exact isLogger_iff.mp taken
    rw [isLogger_iff, placed.logger c ne moved]
    exact isLogger_iff.mp moved

theorem isLogger_enter_self (r : Register) (x : String) :
    x = rootName ∨ (r.enter x).isLogger x := by
  refine Classical.or_iff_not_imp_left.mpr fun below => ?_
  by_cases taken : r.isLogger x
  · exact isLogger_enter r x taken
  · have apart : x ∉ cutOff x := fun cut => (above_of_mem_cutOff cut).ne rfl
    rw [enter_of_vacant below (Bool.eq_false_iff.mpr taken), isLogger_iff]
    exact ⟨_, (placed_place _ x apart).self⟩

/-! ### The register of some names -/

/-- The register `r` after `names` were entered: who is a logger and where it stands, and which gaps
remember whom. A gap remembers a logger unless that one stands below something nearer. -/
structure Records (r : Register) (names : List String) : Prop where
  isLogger : ∀ c, r.isLogger c ↔ c ∈ names ∧ c ≠ rootName
  above : ∀ c ∈ names, c ≠ rootName → r.above c = parent names c
  passed : ∀ g, ∀ c ∈ r.passedAt g, c ∈ names ∧ c ≠ rootName ∧ g ∈ cutOff c
  remembered : ∀ g c, r.isLogger g = false → c ∈ names → c ≠ rootName → g ∈ cutOff c →
    c ∈ r.passedAt g ∨ ∃ q ∈ cutOff c, g.length < q.length ∧ sees names c q

theorem records_empty : Records .empty [] where
  isLogger _ := ⟨nofun, fun h => absurd h.1 List.not_mem_nil⟩
  above _ found := absurd found List.not_mem_nil
  passed _ _ found := absurd found List.not_mem_nil
  remembered _ _ _ found := absurd found List.not_mem_nil

theorem Records.vacant (h : Records r names) (fresh : x ∉ names) : r.isLogger x = false :=
  Bool.eq_false_iff.mpr fun taken => fresh ((h.isLogger x).mp taken).1

/-- Where a logger stands after a name was entered for the first time. -/
theorem Records.parent_append (h : Records r names) (fresh : x ∉ names) (found : c ∈ names)
    (below : c ≠ rootName) :
    parent (names ++ [x]) c =
      if c ∈ r.passedAt x ∧ ¬ x.toList <+: (r.above c).toList then x else r.above c := by
  rw [h.above c found below]
  split
  · rename_i moves
    obtain ⟨passed, apart⟩ := moves
    have cut := (h.passed x c passed).2.2
    rcases parent_cases names c with ⟨p, eq, cut', seen, nearest⟩ | ⟨eq, none⟩
    · -- The logger above is shorter, for otherwise its name would begin with the new one.
      rw [eq] at apart
      have shorter : p.length < x.length := by
        refine Nat.lt_of_not_le fun le => apart ?_
        refine List.prefix_of_prefix_length_le (above_of_mem_cutOff cut).isPrefix
          (above_of_mem_cutOff cut').isPrefix ?_
        rwa [String.length_toList, String.length_toList]
      have above := (above_of_mem_cutOff cut').of_length_lt (above_of_mem_cutOff cut) shorter
      have dot := above.dot_mem
      refine parent_append_eq found fresh cut (not_begins_of_dot dot) fun q cut'' longer => ?_
      exact nearest q cut'' (Nat.lt_trans shorter longer)
    · rw [eq] at apart
      exact parent_append_eq found fresh cut apart fun q cut' _ => none q cut'
  · rename_i stays
    refine parent_append_of_unseen found fun _ cut seen => ?_
    rcases h.remembered x c (h.vacant fresh) found below cut with passed | nearer
    · -- It is remembered and yet stays, so that what stands above it begins with the new name.
      have begins : x.toList <+: (parent names c).toList :=
        Classical.byContradiction fun apart => stays ⟨passed, apart⟩
      rcases parent_cases names c with ⟨p, eq, cut', seen', -⟩ | ⟨eq, -⟩
      · rw [eq] at begins
        have le := begins.length_le
        rw [String.length_toList, String.length_toList] at le
        refine ⟨p, cut', Nat.lt_of_le_of_ne le fun same => fresh ?_, seen'⟩
        rw [(above_of_mem_cutOff cut).eq_of_length_eq (above_of_mem_cutOff cut') same]
        exact (sees_iff.mp seen').1
      · rw [eq] at begins
        exact absurd begins ((sees_append_self found fresh).mp seen)
    · exact nearer

/-- A name that has a logger already makes no difference. -/
theorem Records.append_old (h : Records r names) (old : x = rootName ∨ x ∈ names) :
    Records r (names ++ [x]) := by
  have among : ∀ {c}, c ∈ names ++ [x] → c ≠ rootName → c ∈ names := by
    intro c found below
    rcases List.mem_append.mp found with found | same
    · exact found
    · rw [List.mem_singleton.mp same] at below ⊢
      exact old.resolve_left below
  refine ⟨fun c => ?_, fun c found below => ?_, fun g c passed => ?_,
    fun g c vacant found below cut => ?_⟩
  · rw [h.isLogger c]
    exact ⟨fun ⟨found, below⟩ => ⟨List.mem_append_left _ found, below⟩,
      fun ⟨found, below⟩ => ⟨among found below, below⟩⟩
  · rw [h.above c (among found below) below]
    refine (parent_append_of_unseen (among found below) fun fresh _ seen => ?_).symm
    -- Only the root can be new, and nobody sees it.
    rw [old.resolve_right fresh] at seen
    exact absurd rfl (sees_iff.mp seen).2.1
  · obtain ⟨found, rest⟩ := h.passed g c passed
    exact ⟨List.mem_append_left _ found, rest⟩
  · refine (h.remembered g c vacant (among found below) below cut).imp_right ?_
    rintro ⟨q, cut', longer, seen⟩
    refine ⟨q, cut', longer, ?_⟩
    rwa [sees_append (among found below) (.inr (sees_iff.mp seen).1)]

/-- Past the names that a logger is not remembered at, it has met a logger. -/
theorem exists_longer_logger (cut : g ∈ cutOff x) (vacant : r.isLogger g = false)
    (unmet : g ∉ (cutOff x).takeWhile fun h => !r.isLogger h) :
    ∃ q ∈ cutOff x, g.length < q.length ∧ r.isLogger q := by
  have sorted := pairwise_cutOff x
  have whole := List.takeWhile_append_dropWhile (p := fun h => !r.isLogger h) (l := cutOff x)
  cases rest : (cutOff x).dropWhile fun h => !r.isLogger h with
  | nil =>
    rw [rest, List.append_nil] at whole
    rw [whole] at unmet
    exact absurd cut unmet
  | cons q rest' =>
    have logger := List.head?_dropWhile_not (fun h => !r.isLogger h) (cutOff x)
    rw [rest] at logger whole
    simp only [List.head?_cons, Bool.not_eq_false'] at logger
    rw [← whole] at cut sorted ⊢
    have found := (List.mem_append.mp cut).resolve_left unmet
    refine ⟨q, List.mem_append_right _ List.mem_cons_self, ?_, logger⟩
    rcases List.mem_cons.mp found with same | later
    · rw [same, logger] at vacant
      cases vacant
    · exact (List.pairwise_cons.mp (List.pairwise_append.mp sorted).2.1).1 g later

theorem Records.isLogger_of_mem_passedAt (h : Records r names) (g : String) :
    ∀ c ∈ r.passedAt g, r.isLogger c := fun c passed =>
  (h.isLogger c).mpr ⟨(h.passed g c passed).1, (h.passed g c passed).2.1⟩

theorem Records.isLogger_adopted (h : Records r names) (x : String) :
    ((r.passedAt x).foldl (adopt x) r).isLogger = r.isLogger :=
  isLogger_foldl_adopt x (h.isLogger_of_mem_passedAt x)

section Fresh

variable (h : Records r names) (below : x ≠ rootName) (fresh : x ∉ names)

include h below fresh

/-- A new name is placed after those that were placed past it have moved below it. -/
theorem Records.placed_enter :
    Placed ((r.passedAt x).foldl (adopt x) r) (r.enter x) x (cutOff x) := by
  rw [enter_of_vacant below (h.vacant fresh)]
  exact placed_place _ x fun cut => (above_of_mem_cutOff cut).ne rfl

/-- A new name gets a logger, and nobody else. -/
theorem Records.isLogger_enter_iff (c : String) :
    (r.enter x).isLogger c ↔ c = x ∨ r.isLogger c := by
  have placed := h.placed_enter below fresh
  have same := h.isLogger_adopted x
  by_cases new : c = x
  · simp [new, isLogger_iff, placed.self]
  · cases taken : r.isLogger c with
    | true =>
      have there := placed.logger c new (by rw [same, taken])
      rw [← same] at taken
      simpa [isLogger_iff, there] using taken
    | false => simp [new, placed.vacant c new (by rw [same, taken])]

/-- A new logger stands below the first logger among the names cut off from it. -/
theorem Records.above_enter_self : (r.enter x).above x = parent (names ++ [x]) x := by
  have first : (cutOff x).find? r.isLogger = (cutOff x).find? (sees (names ++ [x]) x) := by
    refine List.find?_congr fun p cut => ?_
    rw [Bool.eq_iff_iff, h.isLogger, sees_append_of_fresh fresh (above_of_mem_cutOff cut).ne]
  have same := h.isLogger_adopted x
  rw [above_of_node? (h.placed_enter below fresh).self, same, parent, first]

/-- Any other logger stays where it stands, or has moved below the new one. -/
theorem Records.above_enter (found : c ∈ names) (below' : c ≠ rootName) :
    (r.enter x).above c = parent (names ++ [x]) c := by
  have new : c ≠ x := fun new => fresh (new ▸ found)
  have same := h.isLogger_adopted x
  have there := (h.placed_enter below fresh).logger c new
    (by rw [same]; exact (h.isLogger c).mpr ⟨found, below'⟩)
  rw [node?_foldl_adopt] at there
  rw [h.parent_append fresh found below']
  by_cases moved : c ∈ r.passedAt x ∧ ¬ x.toList <+: (r.above c).toList
  · rw [if_pos moved] at there ⊢
    exact above_of_node? there
  · rw [if_neg moved] at there ⊢
    exact above_congr there

/-- A gap remembers whom it did, and the new logger if that was placed past it. -/
theorem Records.mem_passedAt_enter (gap : (r.enter x).isLogger g = false) :
    c ∈ (r.enter x).passedAt g ↔
      c ∈ r.passedAt g ∨ c = x ∧ g ∈ (cutOff x).takeWhile fun h => !r.isLogger h := by
  obtain ⟨new, free⟩ := not_or.mp ((h.isLogger_enter_iff below fresh g).not.mp (by simp [gap]))
  have free := Bool.eq_false_iff.mpr free
  have same := h.isLogger_adopted x
  rw [(h.placed_enter below fresh).passed g new (by rw [same, free]),
    passedAt_foldl_adopt x (h.isLogger_of_mem_passedAt x) free, same]

/-- A gap among the names cut off from a new logger remembers it, or it has met a logger before. -/
theorem Records.remembered_enter_self (gap : (r.enter x).isLogger g = false) (cut : g ∈ cutOff x) :
    x ∈ (r.enter x).passedAt g ∨
      ∃ q ∈ cutOff x, g.length < q.length ∧ sees (names ++ [x]) x q := by
  have free := (h.isLogger_enter_iff below fresh g).not.mp (by simp [gap])
  rw [h.mem_passedAt_enter below fresh gap]
  by_cases met : g ∈ (cutOff x).takeWhile fun h => !r.isLogger h
  · exact .inl (.inr ⟨rfl, met⟩)
  · obtain ⟨q, cut', longer, logger⟩ :=
      exists_longer_logger cut (Bool.eq_false_iff.mpr (not_or.mp free).2) met
    refine .inr ⟨q, cut', longer, ?_⟩
    rw [sees_append_of_fresh fresh (above_of_mem_cutOff cut').ne]
    exact (h.isLogger q).mp logger

/-- Whom a gap remembered, it goes on remembering. -/
theorem Records.remembered_enter (gap : (r.enter x).isLogger g = false) (found : c ∈ names)
    (below' : c ≠ rootName) (cut : g ∈ cutOff c) :
    c ∈ (r.enter x).passedAt g ∨
      ∃ q ∈ cutOff c, g.length < q.length ∧ sees (names ++ [x]) c q := by
  have free := (h.isLogger_enter_iff below fresh g).not.mp (by simp [gap])
  rw [h.mem_passedAt_enter below fresh gap]
  refine (h.remembered g c (Bool.eq_false_iff.mpr (not_or.mp free).2) found below' cut).imp .inl ?_
  rintro ⟨q, cut', longer, seen⟩
  refine ⟨q, cut', longer, ?_⟩
  rwa [sees_append found (.inr (sees_iff.mp seen).1)]

/-- A new name gets a logger, which is placed and may take others below it. -/
theorem Records.append_fresh : Records (r.enter x) (names ++ [x]) where
  isLogger c := by
    rw [h.isLogger_enter_iff below fresh, h.isLogger, List.mem_append, List.mem_singleton]
    constructor
    · rintro (rfl | ⟨found, below'⟩)
      · exact ⟨.inr rfl, below⟩
      · exact ⟨.inl found, below'⟩
    · rintro ⟨found | new, below'⟩
      · exact .inr ⟨found, below'⟩
      · exact .inl new
  above c found below' := by
    rcases List.mem_append.mp found with found | new
    · exact h.above_enter below fresh found below'
    · obtain rfl := List.mem_singleton.mp new
      exact h.above_enter_self below fresh
  passed g c passed := by
    have gap := not_isLogger_of_mem_passedAt passed
    rcases (h.mem_passedAt_enter below fresh gap).mp passed with passed | ⟨rfl, met⟩
    · obtain ⟨found, rest⟩ := h.passed g c passed
      exact ⟨List.mem_append_left _ found, rest⟩
    · exact ⟨by simp, below, (List.takeWhile_prefix _).subset met⟩
  remembered g c gap found below' cut := by
    rcases List.mem_append.mp found with found | new
    · exact h.remembered_enter below fresh gap found below' cut
    · obtain rfl := List.mem_singleton.mp new
      exact h.remembered_enter_self below fresh gap cut

end Fresh

/-- Entering a name keeps the register right. -/
theorem records_enter (h : Records r names) (x : String) : Records (r.enter x) (names ++ [x]) := by
  by_cases old : x = rootName ∨ x ∈ names
  · have taken : x = rootName ∨ r.isLogger x := by
      by_cases root : x = rootName
      · exact .inl root
      · exact .inr ((h.isLogger x).mpr ⟨old.resolve_left root, root⟩)
    rw [enter_of_isLogger taken]
    exact h.append_old old
  · obtain ⟨below, fresh⟩ := not_or.mp old
    exact h.append_fresh below fresh

end Register

end Intcode.Log
