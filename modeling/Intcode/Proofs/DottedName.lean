import Mathlib.Data.List.TakeWhile
import Intcode.Log.Register

/-!
# Dotted names

A name stands above those that begin with it and a dot. The names cut off from a name by its dots
are names above it, the longest first, and they are all of them unless there are two dots in a row.

## Main definitions

* `Log.Above` — a name above another one
* `Log.Tidy` — a name without two dots in a row

## Main results

* `Log.above_of_mem_cutOff`, `Log.mem_cutOff` — the names cut off are the names above
* `Log.pairwise_cutOff` — the longest comes first
-/

namespace Intcode.Log

variable {p q n : String}

/-! ### Names above a name -/

/-- The name `p` stands above the name `n`, which begins with it and a dot. -/
def Above (p n : String) : Prop := p ≠ "" ∧ p.toList ++ ['.'] <+: n.toList

instance (p n : String) : Decidable (Above p n) :=
  inferInstanceAs (Decidable (_ ∧ _))

/-- A name without two dots in a row. -/
def Tidy (name : String) : Prop := ¬ ['.', '.'] <:+: name.toList

instance (name : String) : Decidable (Tidy name) :=
  inferInstanceAs (Decidable (¬ _))

theorem Above.isPrefix (h : Above p n) : p.toList <+: n.toList :=
  (List.prefix_append _ _).trans h.2

theorem Above.length_lt (h : Above p n) : p.length < n.length := by
  have whole := h.2.length_le
  rwa [List.length_append, String.length_toList, String.length_toList] at whole

theorem Above.dot_mem (h : Above p n) : '.' ∈ n.toList :=
  h.2.subset (by simp)

theorem Above.trans (h : Above p q) (h' : Above q n) : Above p n :=
  ⟨h.1, h.2.trans h'.isPrefix⟩

theorem Above.ne (h : Above p n) : p ≠ n := by
  rintro rfl
  exact Nat.lt_irrefl _ h.length_lt

/-- No name stands above the root, which has no dot. -/
theorem not_above_root : ¬ Above p rootName := fun h => absurd h.dot_mem (by decide)

/-- Of two names above a third, the shorter is above the longer. -/
theorem Above.of_length_lt (h : Above p n) (h' : Above q n) (lt : p.length < q.length) :
    Above p q := by
  refine ⟨h.1, List.prefix_of_prefix_length_le h.2 h'.isPrefix ?_⟩
  rwa [List.length_append, String.length_toList, String.length_toList]

theorem Above.eq_of_length_eq (h : Above p n) (h' : Above q n) (eq : p.length = q.length) :
    p = q := by
  rw [← String.length_toList, ← String.length_toList] at eq
  have same := List.prefix_of_prefix_length_le h.isPrefix h'.isPrefix (Nat.le_of_eq eq)
  exact String.toList_inj.mp (same.eq_of_length eq)

/-- Of a name and the names above it, each two are the same or one stands above the other. -/
theorem above_trichotomy (h : p = n ∨ Above p n) (h' : q = n ∨ Above q n) :
    p = q ∨ Above p q ∨ Above q p := by
  rcases h, h' with ⟨rfl | above, rfl | above'⟩
  · exact .inl rfl
  · exact .inr (.inr above')
  · exact .inr (.inl above)
  · rcases Nat.lt_trichotomy p.length q.length with shorter | same | longer
    · exact .inr (.inl (above.of_length_lt above' shorter))
    · exact .inl (above.eq_of_length_eq above' same)
    · exact .inr (.inr (above'.of_length_lt above longer))

theorem Tidy.of_above (tidy : Tidy n) (h : Above p n) : Tidy p :=
  fun dots => tidy (dots.trans h.isPrefix.isInfix)

theorem length_pos_of_named (named : n ≠ "") : 0 < n.length := by
  refine Nat.pos_of_ne_zero fun zero => named ?_
  rw [← String.length_toList, List.length_eq_zero_iff] at zero
  exact String.toList_inj.mp zero

/-! ### Names that are cut off -/

/-- The last dot of a name, with what stands before it and after it. -/
theorem eq_of_dropWhile_dot {name rest : List Char} {c : Char}
    (h : name.reverse.dropWhile (· ≠ '.') = c :: rest) :
    ∃ after, '.' ∉ after ∧ name = rest.reverse ++ '.' :: after := by
  have stops : c = '.' := by
    have head := List.head?_dropWhile_not (fun d : Char => decide (d ≠ '.')) name.reverse
    rw [h] at head
    simpa using head
  refine ⟨(name.reverse.takeWhile (· ≠ '.')).reverse, fun dot => ?_, ?_⟩
  · simpa using List.mem_takeWhile_imp (List.mem_reverse.mp dot)
  · have whole := List.takeWhile_append_dropWhile (p := (· ≠ '.')) (l := name.reverse)
    rw [h, stops] at whole
    simpa using (congrArg List.reverse whole).symm

/-- Before the last dot of a name stands a part that ends there, or one that ends at a dot before.
-/
theorem eq_or_isPrefix_of_dot {part first after : List Char} (clean : '.' ∉ after)
    (h : part ++ ['.'] <+: first ++ '.' :: after) : part = first ∨ part ++ ['.'] <+: first := by
  obtain ⟨tail, eq⟩ := h
  rw [List.append_assoc] at eq
  rcases List.append_eq_append_iff.mp eq with ⟨more, eq, rest⟩ | ⟨more, eq, rest⟩
  · cases more with
    | nil => exact .inl (by simpa using eq.symm)
    | cons d more =>
      obtain ⟨rfl, -⟩ := List.cons.inj rest
      exact .inr ⟨more, by rw [eq, List.append_assoc]; rfl⟩
  · cases more with
    | nil => exact .inl (by simpa using eq)
    | cons d more =>
      obtain ⟨-, rfl⟩ := List.cons.inj rest
      simp at clean

/-- Either no name is cut off, since no dot has anything before it, or one name is cut off at the
last dot and the others from what stands before the last character of that name. -/
theorem cutOffReversed_cases (name : List Char) :
    cutOffReversed name.reverse = [] ∧ (∀ part, part ≠ [] → ¬ part ++ ['.'] <+: name) ∨
    ∃ first last after, '.' ∉ after ∧ name = first ++ [last] ++ '.' :: after ∧
      cutOffReversed name.reverse = (first ++ [last]) :: cutOffReversed first.reverse := by
  rw [cutOffReversed]
  split
  · rename_i h
    refine .inl ⟨rfl, fun part _ dotted => ?_⟩
    have found : '.' ∈ name.reverse := List.mem_reverse.mpr (dotted.subset (by simp))
    simpa using List.dropWhile_eq_nil_iff.mp h '.' found
  · rename_i c h
    refine .inl ⟨rfl, fun part full dotted => ?_⟩
    obtain ⟨after, clean, rfl⟩ := eq_of_dropWhile_dot h
    rcases eq_or_isPrefix_of_dot clean dotted with eq | short
    · exact full eq
    · simp at short
  · rename_i c rest more h
    obtain ⟨after, clean, eq⟩ := eq_of_dropWhile_dot h
    cases rest with
    | nil => exact (more rfl).elim
    | cons last rest =>
      refine .inr ⟨rest.reverse, last, after, clean, ?_, ?_⟩
      · simpa using eq
      · simp

/-! ### The names that are cut off -/

theorem above_of_mem_cutOffReversed {name part : List Char}
    (found : part ∈ cutOffReversed name.reverse) : part ≠ [] ∧ part ++ ['.'] <+: name := by
  rcases cutOffReversed_cases name with ⟨none, -⟩ | ⟨first, last, after, -, eq, cut⟩
  · rw [none] at found
    cases found
  · rw [cut] at found
    rcases List.mem_cons.mp found with rfl | found
    · exact ⟨by simp, by simp [eq]⟩
    · have shorter : first.length < name.length := by simp [eq]
      obtain ⟨full, inside⟩ := above_of_mem_cutOffReversed found
      exact ⟨full, inside.trans (by simp [eq])⟩
termination_by name.length

theorem pairwise_cutOffReversed (name : List Char) :
    (cutOffReversed name.reverse).Pairwise fun part part' => part'.length < part.length := by
  rcases cutOffReversed_cases name with ⟨none, -⟩ | ⟨first, last, after, -, eq, cut⟩
  · rw [none]
    exact .nil
  · have shorter : first.length < name.length := by simp [eq]
    rw [cut]
    refine .cons (fun part found => ?_) (pairwise_cutOffReversed first)
    have := (above_of_mem_cutOffReversed found).2.length_le
    simp at this ⊢
    omega
termination_by name.length

/-- All names above a name without two dots in a row are cut off from it. -/
theorem mem_cutOffReversed {name part : List Char} (tidy : ¬ ['.', '.'] <:+: name)
    (full : part ≠ []) (h : part ++ ['.'] <+: name) : part ∈ cutOffReversed name.reverse := by
  rcases cutOffReversed_cases name with ⟨-, none⟩ | ⟨first, last, after, clean, eq, cut⟩
  · exact absurd h (none part full)
  · have shorter : first.length < name.length := by simp [eq]
    rw [cut]
    rw [eq] at h
    rcases eq_or_isPrefix_of_dot clean h with rfl | short
    · exact List.mem_cons_self
    · -- The dot after `part` is not the last character before the last dot.
      have inner : part ++ ['.'] <+: first := by
        refine (List.prefix_concat_iff.mp short).resolve_left fun same => tidy ?_
        refine ⟨part, after, ?_⟩
        rw [eq, ← same]
        simp
      have whole : first <+: name := by simp [eq]
      refine List.mem_cons_of_mem _ (mem_cutOffReversed (fun dots => ?_) full inner)
      exact tidy (dots.trans whole.isInfix)
termination_by name.length

theorem above_of_mem_cutOff (found : p ∈ cutOff n) : Above p n := by
  obtain ⟨part, cut, rfl⟩ := List.mem_map.mp found
  obtain ⟨full, inside⟩ := above_of_mem_cutOffReversed cut
  refine ⟨fun empty => full ?_, ?_⟩
  · simpa using congrArg String.toList empty
  · simpa using inside

theorem mem_cutOff (tidy : Tidy n) (above : Above p n) : p ∈ cutOff n := by
  refine List.mem_map.mpr ⟨p.toList, mem_cutOffReversed tidy (fun empty => above.1 ?_) above.2, ?_⟩
  · exact String.toList_inj.mp empty
  · exact String.ofList_toList

/-- The longest name is cut off first. -/
theorem pairwise_cutOff (n : String) : (cutOff n).Pairwise fun p q => q.length < p.length := by
  refine List.pairwise_map.mpr ((pairwise_cutOffReversed n.toList).imp ?_)
  intro part part' lt
  simpa using lt

end Intcode.Log
