import Mathlib.Data.List.Basic
import Mathlib.Data.List.Infix
import Intcode.Proofs.Register

/-!
# The way up from a logger

On the way up from a logger are loggers with ever shorter names, and the root at the end. From a
name without two dots in a row these are the name itself and all loggers whose names stand above it,
but for one: a logger whose name begins the name of the root is passed over if it was entered after
the highest logger below it on that way. Where there is no such logger, the first one of some kind
on the way up is the nearest one by its name.

## Main definitions

* `Log.Missed` — a logger that is passed over
* `Log.Clear` — a name from which no logger can be passed over
* `Log.Nearest` — the nearest of some loggers on the way up from a name

## Main results

* `Register.Records.lineage_induction` — induction along the way up
* `Register.Records.pairwise_lineage` — the way up ends at the root, and longer names come first
* `Register.Records.mem_lineage_iff` — who is on the way up
* `Log.find?_eq_some_iff_nearest` — the first on the way up is the nearest
-/

namespace Intcode.Log

variable {names : List String} {c p : String}

namespace Register

variable {r : Register}

/-- Above a logger stands the root or one that was entered, with a shorter name. -/
theorem Records.above_cases (h : Records r names) (c : String) :
    r.above c = rootName ∨
      Above (r.above c) c ∧ r.above c ∈ names ∧ r.above c ≠ rootName := by
  by_cases entered : c ∈ names ∧ c ≠ rootName
  · rw [h.above c entered.1 entered.2]
    rcases parent_cases names c with ⟨p, eq, cut, seen, -⟩ | ⟨eq, -⟩
    · rw [eq]
      obtain ⟨found, below, -⟩ := sees_iff.mp seen
      exact .inr ⟨above_of_mem_cutOff cut, found, below⟩
    · exact .inl eq
  · refine .inl ?_
    have vacant := (h.isLogger c).not.mpr entered
    rw [Register.above]
    split
    · rename_i found
      exact absurd (isLogger_iff.mpr ⟨_, found⟩) vacant
    · rfl

theorem lineageWithin_root (r : Register) (fuel : Nat) :
    r.lineageWithin fuel rootName = [rootName] := by
  cases fuel with
  | zero => rfl
  | succ fuel => rw [lineageWithin, if_pos rfl]

/-- The names above get shorter, so that as much fuel as a name has characters is enough. -/
theorem Records.lineageWithin_eq (h : Records r names) {fuel fuel' : Nat}
    (enough : c = rootName ∨ c ≠ "" ∧ c.length ≤ fuel ∧ c.length ≤ fuel') :
    r.lineageWithin fuel c = r.lineageWithin fuel' c := by
  induction fuel generalizing fuel' c with
  | zero =>
    rcases enough with rfl | ⟨named, le, -⟩
    · rw [lineageWithin_root, lineageWithin_root]
    · exact absurd le (Nat.not_le_of_gt (length_pos_of_named named))
  | succ fuel ih =>
    rcases enough with rfl | ⟨named, le, le'⟩
    · rw [lineageWithin_root, lineageWithin_root]
    · obtain ⟨fuel', rfl⟩ := Nat.exists_eq_add_one_of_ne_zero
        (Nat.pos_iff_ne_zero.mp (Nat.lt_of_lt_of_le (length_pos_of_named named) le'))
      rw [lineageWithin, lineageWithin, ih]
      refine (h.above_cases c).imp_right fun ⟨above, _⟩ => ⟨above.1, ?_⟩
      have := above.length_lt
      omega

theorem Records.lineage_eq (h : Records r names) (named : c ≠ "") (below : c ≠ rootName) :
    r.lineage c = c :: r.lineage (r.above c) := by
  obtain ⟨k, eq⟩ := Nat.exists_eq_add_one_of_ne_zero
    (Nat.pos_iff_ne_zero.mp (length_pos_of_named named))
  unfold lineage
  rw [eq, lineageWithin, if_neg below]
  congr 1
  refine h.lineageWithin_eq ((h.above_cases c).imp_right fun ⟨above, _⟩ => ⟨above.1, ?_⟩)
  have := above.length_lt
  omega

theorem lineage_root (r : Register) : r.lineage rootName = [rootName] :=
  lineageWithin_root r _

/-- Induction along the way up: what holds of the root, and of a logger if it holds of the one
above, holds of all. -/
theorem Records.lineage_induction (h : Records r names) {motive : String → List String → Prop}
    (root : motive rootName [rootName])
    (step : ∀ c, c ≠ rootName → r.above c = rootName ∨ Above (r.above c) c ∧ r.above c ∈ names →
      motive (r.above c) (r.lineage (r.above c)) → motive c (c :: r.lineage (r.above c)))
    (c : String) (named : c ≠ "") : motive c (r.lineage c) := by
  by_cases below : c = rootName
  · rw [below, lineage_root]
    exact root
  · rw [h.lineage_eq named below]
    rcases h.above_cases c with top | ⟨above, entered, -⟩
    · refine step c below (.inl top) ?_
      rw [top, lineage_root]
      exact root
    · have := above.length_lt
      exact step c below (.inr ⟨above, entered⟩) (h.lineage_induction root step _ above.1)
termination_by c.length

/-- On the way up from a logger are those that were entered among the names above it, and the root.
-/
theorem Records.of_mem_lineage (h : Records r names) (named : c ≠ "") :
    ∀ p ∈ r.lineage c, p = c ∨ p = rootName ∨ Above p c ∧ p ∈ names := by
  refine h.lineage_induction
    (motive := fun c line => ∀ p ∈ line, p = c ∨ p = rootName ∨ Above p c ∧ p ∈ names)
    ?_ (fun c below higher ih p found => ?_) c named
  · exact fun p found => .inl (List.mem_singleton.mp found)
  · rcases List.mem_cons.mp found with same | found
    · exact .inl same
    · refine .inr ?_
      rcases ih p found with same | root | ⟨above, entered⟩
      · exact same ▸ higher
      · exact .inl root
      · refine higher.elim (fun top => ?_) fun ⟨above', _⟩ => .inr ⟨above.trans above', entered⟩
        rw [top] at above
        exact absurd above not_above_root

/-- The way up ends at the root, and passes the longer names first. -/
theorem Records.pairwise_lineage (h : Records r names) (named : c ≠ "") :
    (r.lineage c).Pairwise fun p q => p ≠ rootName ∧ (q = rootName ∨ Above q p) := by
  refine h.lineage_induction
    (motive := fun _ line => line.Pairwise fun p q => p ≠ rootName ∧ (q = rootName ∨ Above q p))
    (List.pairwise_singleton _ _) (fun c below higher ih => ?_) c named
  refine .cons (fun q found => ⟨below, ?_⟩) ih
  rcases higher with top | ⟨above, -⟩
  · rw [top, lineage_root] at found
    exact .inl (List.mem_singleton.mp found)
  · rcases h.of_mem_lineage above.1 q found with same | root | ⟨above', -⟩
    · exact .inr (same ▸ above)
    · exact .inl root
    · exact .inr (above'.trans above)

end Register

/-- The logger `p` is passed over on the way up from `c`: the name of the root begins with its name,
and it was entered after the highest logger below it on that way. -/
def Missed (names : List String) (c p : String) : Prop :=
  p ≠ rootName ∧ p.toList <+: rootName.toList ∧
    ∃ m ∈ names, (m = c ∨ Above m c) ∧ Above p m ∧ (∀ d ∈ names, Above d m → ¬ Above p d) ∧
      names.idxOf m < names.idxOf p

section Missed

variable {q : String} (tidy : Tidy c)

include tidy

/-- A logger that is entered between `c` and what `c` sees first has no dots, and nothing above it.
-/
theorem not_above_of_nearest (nearest : ∀ m ∈ cutOff c, q.length < m.length → ¬ sees names c m)
    {m : String} (entered : m ∈ names) (above : Above m c) (longer : q.length < m.length) :
    ¬ Above p m := fun dotted =>
  nearest m (mem_cutOff tidy above) longer (sees_of_dot entered dotted.dot_mem)

/-- What `c` sees first is not passed over. -/
theorem not_missed_of_seen (seen : sees names c q)
    (nearest : ∀ m ∈ cutOff c, q.length < m.length → ¬ sees names c m) : ¬ Missed names c q := by
  rintro ⟨-, begins, m, entered, rfl | above, higher, -, early⟩
  · exact Nat.lt_asymm early ((sees_iff.mp seen).2.2 begins)
  · exact not_above_of_nearest tidy nearest entered above higher.length_lt higher

/-- The way up from `c` goes on from what `c` sees first, and passes the same loggers over. -/
theorem missed_iff_of_seen (cut : q ∈ cutOff c) (seen : sees names c q)
    (nearest : ∀ m ∈ cutOff c, q.length < m.length → ¬ sees names c m) (above : Above p q) :
    Missed names c p ↔ Missed names q p := by
  have higher := above_of_mem_cutOff cut
  refine and_congr_right' (and_congr_right' (exists_congr fun m => and_congr_right fun entered =>
    ⟨fun ⟨line, above', highest, early⟩ => ⟨?_, above', highest, early⟩,
      fun ⟨line, rest⟩ => ⟨.inr ?_, rest⟩⟩))
  · rcases line with rfl | line
    · exact absurd above (highest q (sees_iff.mp seen).1 higher)
    · rcases Nat.lt_trichotomy m.length q.length with shorter | same | longer
      · exact .inr (line.of_length_lt higher shorter)
      · exact .inl (line.eq_of_length_eq higher same)
      · exact absurd above' (not_above_of_nearest tidy nearest entered line longer)
  · exact line.elim (fun same => same ▸ higher) fun line => line.trans higher

/-- The way up from `c` is `c` itself and the way up from what `c` sees first. -/
theorem on_way_iff_of_seen (cut : q ∈ cutOff c) (seen : sees names c q)
    (nearest : ∀ m ∈ cutOff c, q.length < m.length → ¬ sees names c m) :
    (p = c ∨ p = rootName ∨ p = q ∨ Above p q ∧ p ∈ names ∧ ¬ Missed names q p) ↔
      (p = rootName ∨ p = c ∨ Above p c ∧ p ∈ names ∧ ¬ Missed names c p) := by
  have higher := above_of_mem_cutOff cut
  constructor
  · rintro (same | root | same | ⟨above, entered, met⟩)
    · exact .inr (.inl same)
    · exact .inl root
    · refine .inr (.inr ⟨same ▸ higher, same ▸ (sees_iff.mp seen).1, ?_⟩)
      exact same ▸ not_missed_of_seen tidy seen nearest
    · refine .inr (.inr ⟨above.trans higher, entered, ?_⟩)
      rwa [missed_iff_of_seen tidy cut seen nearest above]
  · rintro (root | same | ⟨above, entered, met⟩)
    · exact .inr (.inl root)
    · exact .inl same
    · -- A name above `c` stands above `q` too, is `q`, or would have been seen before `q`.
      rcases Nat.lt_trichotomy p.length q.length with shorter | same | longer
      · have above' := above.of_length_lt higher shorter
        rw [missed_iff_of_seen tidy cut seen nearest above'] at met
        exact .inr (.inr (.inr ⟨above', entered, met⟩))
      · exact .inr (.inr (.inl (above.eq_of_length_eq higher same)))
      · have between := higher.of_length_lt above longer
        exact absurd between (not_above_of_nearest tidy nearest entered above longer)

/-- If `c` sees nothing, a logger above it is passed over. -/
theorem missed_of_unseen (entered : c ∈ names) (none : ∀ m ∈ cutOff c, ¬ sees names c m)
    (above : Above p c) (entered' : p ∈ names) (below : p ≠ rootName) : Missed names c p := by
  have unseen := none p (mem_cutOff tidy above)
  have begins : p.toList <+: rootName.toList := by
    refine Classical.byContradiction fun apart => unseen (sees_iff.mpr ⟨entered', below, ?_⟩)
    exact fun begins => absurd begins apart
  refine ⟨below, begins, c, entered, .inl rfl, above, fun d found above' dotted => ?_, ?_⟩
  · exact none d (mem_cutOff tidy above') (sees_of_dot found dotted.dot_mem)
  · have late : ¬ names.idxOf p < names.idxOf c := fun early =>
      unseen (sees_iff.mpr ⟨entered', below, fun _ => early⟩)
    refine Nat.lt_of_le_of_ne (Nat.le_of_not_lt late) fun same => above.ne ?_
    exact ((List.idxOf_inj entered).mp same).symm

end Missed

/-- Who is on the way up from a name without two dots in a row: the root, the name itself, and the
names above it that were entered, but for one that is passed over. -/
theorem Register.Records.mem_lineage_iff {r : Register} (h : r.Records names) (named : c ≠ "") :
    Tidy c → c ∈ names → ∀ p, p ∈ r.lineage c ↔
      p = rootName ∨ p = c ∨ Above p c ∧ p ∈ names ∧ ¬ Missed names c p := by
  refine h.lineage_induction (motive := fun c line => Tidy c → c ∈ names → ∀ p, p ∈ line ↔
    p = rootName ∨ p = c ∨ Above p c ∧ p ∈ names ∧ ¬ Missed names c p) ?_ ?_ c named
  · intro _ _ p
    rw [List.mem_singleton]
    refine ⟨.inl, fun line => line.elim id fun line => line.elim id fun ⟨above, _⟩ => ?_⟩
    exact absurd above not_above_root
  · intro c below _ ih tidy entered p
    rw [h.above c entered below] at ih ⊢
    rw [List.mem_cons]
    rcases parent_cases names c with ⟨q, eq, cut, seen, nearest⟩ | ⟨eq, none⟩
    · -- The way goes on from `q`, and beyond `q` it is the way from there.
      rw [eq] at ih ⊢
      rw [ih (tidy.of_above (above_of_mem_cutOff cut)) (sees_iff.mp seen).1 p]
      exact on_way_iff_of_seen tidy cut seen nearest
    · -- The way ends here, since nothing is seen.
      rw [eq, Register.lineage_root, List.mem_singleton]
      constructor
      · rintro (same | root)
        · exact .inr (.inl same)
        · exact .inl root
      · rintro (root | same | ⟨above, entered', met⟩)
        · exact .inr root
        · exact .inl same
        · refine .inr (Classical.byContradiction fun below' => met ?_)
          exact missed_of_unseen tidy entered none above entered' below'

/-! ### Names from which nobody is passed over -/

/-- A name without two dots in a row, above which no logger but the root stands whose name begins
the name of the root. -/
def Clear (names : List String) (n : String) : Prop :=
  Tidy n ∧ ∀ p ∈ names, Above p n → p ≠ rootName → ¬ p.toList <+: rootName.toList

instance (names : List String) (n : String) : Decidable (Clear names n) :=
  inferInstanceAs (Decidable (_ ∧ _))

theorem Clear.of_append {n x : String} (h : Clear (names ++ [x]) n) : Clear names n :=
  ⟨h.1, fun p entered => h.2 p (List.mem_append_left _ entered)⟩

theorem Clear.append_self {n : String} (h : Clear names n) : Clear (names ++ [n]) n := by
  refine ⟨h.1, fun p entered above => ?_⟩
  rcases List.mem_append.mp entered with old | own
  · exact h.2 p old above
  · exact absurd (List.mem_singleton.mp own) above.ne

/-- From a clear name, all names above it that were entered are on the way up. -/
theorem Register.Records.mem_lineage_of_clear {r : Register} {n : String} (h : r.Records names)
    (named : n ≠ "") (clear : Clear names n) (entered : n ∈ names) (p : String) :
    p ∈ r.lineage n ↔ p = rootName ∨ p = n ∨ Above p n ∧ p ∈ names := by
  rw [h.mem_lineage_iff named clear.1 entered]
  refine or_congr_right (or_congr_right (and_congr_right fun above => and_iff_left_of_imp ?_))
  rintro found ⟨below, begins, -⟩
  exact clear.2 p found above below begins

/-! ### The nearest logger -/

/-- The nearest of some loggers on the way up from a name. Any other of them stands above it, and
the root is above all. -/
inductive Nearest (eligible : String → Prop) (n : String) : String → Prop
  | named {c : String} (line : c = n ∨ Above c n) (one : eligible c)
      (nearest : ∀ d, eligible d → d = n ∨ Above d n → d = c ∨ Above d c) : Nearest eligible n c
  | root (one : eligible rootName) (none : ∀ d, eligible d → ¬ (d = n ∨ Above d n)) :
      Nearest eligible n rootName

/-- The nearest of some loggers, found among all names that the name begins with. -/
theorem Nearest.of_inits {eligible : String → Prop} {n c : String} (line : c = n ∨ Above c n)
    (one : eligible c) (nearest : ∀ d ∈ n.toList.inits, eligible (.ofList d) →
      .ofList d = c ∨ Above (.ofList d) c) : Nearest eligible n c := by
  refine .named line one fun d eligible below => ?_
  have begins : d.toList <+: n.toList := by
    rcases below with rfl | above
    · exact List.prefix_refl _
    · exact above.isPrefix
  have found := nearest d.toList ((List.mem_inits _ _).mpr begins)
  rw [String.ofList_toList] at found
  exact found eligible

section Nearest

variable {eligible : String → Bool} {n : String} {line : List String}
  (ordered : line.Pairwise fun p q => p ≠ rootName ∧ (q = rootName ∨ Above q p))
  (member : ∀ d, eligible d → (d ∈ line ↔ d = rootName ∨ d = n ∨ Above d n))

include ordered member

/-- Any other logger of the kind comes after the first one. -/
theorem later_of_find? (first : line.find? eligible = some c) {d : String} (one : eligible d)
    (below : d = n ∨ Above d n) : d = c ∨ c ≠ rootName ∧ (d = rootName ∨ Above d c) := by
  obtain ⟨-, before, after, eq, silent⟩ := List.find?_eq_some_iff_append.mp first
  have met := (member d one).mpr (.inr below)
  rw [eq] at ordered met
  rcases List.mem_append.mp met with early | late
  · have other := silent d early
    rw [one] at other
    cases other
  · obtain ⟨-, ordered, -⟩ := List.pairwise_append.mp ordered
    exact (List.mem_cons.mp late).imp_right fun late => List.rel_of_pairwise_cons ordered late

theorem nearest_of_find? (first : line.find? eligible = some c) :
    Nearest (fun d => eligible d) n c := by
  have one : eligible c := List.find?_some first
  have met := (member c one).mp (List.mem_of_find?_eq_some first)
  have later := fun {d} => later_of_find? ordered member first (d := d)
  -- The root may be on the way up only as the last one, or because its name stands above.
  by_cases below : c = n ∨ Above c n
  · refine .named below one fun d one' below' => ?_
    rcases later one' below' with same | ⟨-, rfl | above⟩
    · exact .inl same
    · exact (above_trichotomy below' below).imp_right (·.resolve_right not_above_root)
    · exact .inr above
  · obtain rfl : c = rootName := met.resolve_right below
    refine .root one fun d one' below' => ?_
    rcases later one' below' with same | ⟨other, -⟩
    · exact below (same ▸ below')
    · exact other rfl

theorem find?_of_nearest (nearest : Nearest (fun d => eligible d) n c) :
    line.find? eligible = some c := by
  obtain ⟨one, met⟩ : eligible c ∧ c ∈ line := by
    cases nearest with
    | named below one => exact ⟨one, (member c one).mpr (.inr below)⟩
    | root one => exact ⟨one, (member rootName one).mpr (.inl rfl)⟩
  obtain ⟨before, after, eq⟩ := List.append_of_mem met
  refine List.find?_eq_some_iff_append.mpr ⟨one, before, after, eq, fun d early => ?_⟩
  rw [eq] at ordered
  obtain ⟨-, -, ordered⟩ := List.pairwise_append.mp ordered
  obtain ⟨below, above⟩ := ordered d early c List.mem_cons_self
  rw [Bool.not_eq_true', Bool.eq_false_iff]
  intro one'
  -- Another one before it would be nearer.
  have below' := ((member d one').mp (eq ▸ List.mem_append_left _ early)).resolve_left below
  cases nearest with
  | named _ _ nearest =>
    rcases nearest d one' below', above with ⟨rfl | higher, rfl | above⟩
    · exact below rfl
    · exact above.ne rfl
    · exact not_above_root higher
    · exact (higher.trans above).ne rfl
  | root _ none => exact none d one' below'

/-- The first logger of a kind on the way up is the nearest one. -/
theorem find?_eq_some_iff_nearest :
    line.find? eligible = some c ↔ Nearest (fun d => eligible d) n c :=
  ⟨nearest_of_find? ordered member, find?_of_nearest ordered member⟩

end Nearest

end Intcode.Log
