import Intcode.Files.Tree

/-!
# What file operations keep

Directories are made, and files are opened and written at their ends, but nothing is ever taken
away: a directory stays one, and a file keeps what it holds at its beginning. So a path that leads
to a file goes on leading there, whatever is made or written afterwards.

## Main definitions

* `Tree.Keeps` — a tree that has all of another one
* `Tree.Opens` — what comes of opening a file in a directory that is made if need be

## Main results

* `Tree.Keeps.locate` — a path goes on leading to its file
* `Tree.Opens.keeps`, `Tree.Opens.locate` — a file that is opened can be found
* `Tree.find?_append_self`, `Tree.find?_append_of_ne` — what is written, and where
-/

namespace Intcode

/-- A list of items with keys, with one item put in place of those with its key: the items with
other keys are found as before. -/
theorem find?_replace_of_ne {κ α : Type} [DecidableEq κ] (items : List (κ × α)) {key other : κ}
    (ne : other ≠ key) (a : α) :
    ((key, a) :: items.filter fun item => item.1 ≠ key).find? (fun item => item.1 = other) =
      items.find? fun item => item.1 = other := by
  rw [List.find?_cons_of_neg (by simpa using ne.symm), List.find?_filter]
  congr 1
  funext item
  by_cases same : item.1 = other
  · simp [same, ne]
  · simp [same]

namespace Files.Tree

variable {t t' t'' : Tree} {p : Path} {place other here names : List String} {e : Error}

/-! ### Places -/

theorem find?_put_self (t : Tree) (below : place ≠ []) (entry : Entry) :
    find? (t.put place entry) place = some entry := by
  simp [find?, put, below]

theorem find?_put_of_ne (t : Tree) (ne : other ≠ place) (entry : Entry) :
    find? (t.put place entry) other = t.find? other := by
  unfold find? put
  rw [find?_replace_of_ne _ ne]

/-- The root is there before anything is put into a tree. -/
theorem ne_nil_of_entry?_eq_none (free : t.find? place = none) : place ≠ [] := by
  rintro rfl
  cases free

/-! ### Keeping all there is -/

/-- The tree `t'` has all of the tree `t`: the same working directory, the directories, and the
files with what they hold, to which more may have been added. -/
structure Keeps (t t' : Tree) : Prop where
  working : t'.working = t.working
  directory : ∀ place, t.find? place = some .directory → t'.find? place = some .directory
  file : ∀ place content, t.find? place = some (.file content) →
    ∃ more, t'.find? place = some (.file (content ++ more))

theorem Keeps.refl (t : Tree) : Keeps t t :=
  ⟨rfl, fun _ h => h, fun _ _ h => ⟨.empty, by rwa [ByteArray.append_empty]⟩⟩

theorem Keeps.trans (h : Keeps t t') (h' : Keeps t' t'') : Keeps t t'' := by
  refine ⟨h'.working.trans h.working, fun place there => ?_, fun place content there => ?_⟩
  · exact h'.directory place (h.directory place there)
  · obtain ⟨more, there⟩ := h.file place content there
    obtain ⟨yet, there⟩ := h'.file place _ there
    exact ⟨more ++ yet, by rwa [← ByteArray.append_assoc]⟩

/-- Something put at a free place leaves all the rest. -/
theorem keeps_put (free : t.find? place = none) (entry : Entry) :
    Keeps t (t.put place entry) := by
  have same : ∀ other there, t.find? other = some there →
      find? (t.put place entry) other = some there := by
    intro other there found
    have ne : other ≠ place := by
      rintro rfl
      rw [free] at found
      cases found
    rwa [find?_put_of_ne t ne]
  refine ⟨rfl, fun other found => same other _ found, fun other content found => ?_⟩
  exact ⟨.empty, by rw [ByteArray.append_empty]; exact same other _ found⟩

/-- What is written at the end of a file. -/
theorem find?_append_self {content : ByteArray} (bytes : ByteArray)
    (there : t.find? place = some (.file content)) :
    find? (t.append place bytes) place = some (.file (content ++ bytes)) := by
  have below : place ≠ [] := by
    rintro rfl
    cases there
  unfold append
  rw [there]
  exact find?_put_self t below _

/-- Nothing else is written. -/
theorem find?_append_of_ne (t : Tree) (ne : other ≠ place) (bytes : ByteArray) :
    find? (t.append place bytes) other = t.find? other := by
  unfold append
  split
  · exact find?_put_of_ne t ne _
  · rfl

theorem keeps_append (t : Tree) (place : List String) (bytes : ByteArray) :
    Keeps t (t.append place bytes) := by
  refine ⟨?_, fun other found => ?_, fun other content found => ?_⟩
  · unfold append
    split <;> rfl
  · by_cases same : other = place
    · -- A directory is not written to.
      subst same
      unfold append
      rwa [found]
    · rwa [find?_append_of_ne t same]
  · by_cases same : other = place
    · subst same
      exact ⟨bytes, find?_append_self bytes found⟩
    · refine ⟨.empty, ?_⟩
      rwa [find?_append_of_ne t same, ByteArray.append_empty]

/-! ### Following names -/

/-- What is found at the end of names is there, and a free place is free. -/
theorem find?_of_locateFrom {spot : Spot} (found : t.locateFrom here names = .ok spot) :
    (∀ place content, spot = .taken place (.file content) →
      t.find? place = some (.file content)) ∧
    (∀ place, spot = .free place → t.find? place = none) := by
  fun_induction locateFrom t here names with
  | case1 here =>
    cases found
    exact ⟨nofun, nofun⟩
  | case2 here names ih => exact ih found
  | case3 | case6 | case8 => cases found
  | case4 here name names _ place short there ih => exact ih found
  | case5 here name names _ place short content there last =>
    cases found
    refine ⟨?_, nofun⟩
    rintro _ _ ⟨⟩
    exact there
  | case7 here name names _ place short free last =>
    cases found
    refine ⟨nofun, ?_⟩
    rintro _ ⟨⟩
    exact free

/-- Names that led to a file still do in a tree that has kept everything, and names that led to a
free place lead to the file that has been put there. -/
theorem locateFrom_of_keeps (keeps : Keeps t t') {spot : Spot} {content : ByteArray}
    (found : t.locateFrom here names = .ok spot)
    (leads : (∃ old, spot = .taken place (.file old)) ∨ spot = .free place)
    (there : t'.find? place = some (.file content)) :
    t'.locateFrom here names = .ok (.taken place (.file content)) := by
  fun_induction locateFrom t here names with
  | case1 here =>
    cases found
    simp at leads
  | case2 here names ih => exact ih found
  | case3 | case6 | case8 => cases found
  | case4 here name names up place' short there' ih =>
    rw [locateFrom, if_neg short, keeps.directory _ there']
    · exact ih found
    · exact up
  | case5 here name names up place' short old there' last =>
    cases found
    obtain ⟨_, same⟩ := leads.resolve_right nofun
    have same : here ++ [name] = place := (Spot.taken.inj same).1
    rw [locateFrom, if_neg short, same, there]
    · exact if_pos last
    · exact up
  | case7 here name names up place' short free last =>
    cases found
    have same : here ++ [name] = place := Spot.free.inj (leads.resolve_left nofun)
    rw [locateFrom, if_neg short, same, there]
    · exact if_pos last
    · exact up

/-! ### Paths -/

/-- A path leads where its names do, if it has no null character and is not too long. -/
theorem locate_eq_ok_iff {spot : Spot} :
    t.locate p = .ok spot ↔ p.text.toList.contains (Char.ofNat 0) = false ∧
      p.text.utf8ByteSize < pathLimit ∧
      t.locateFrom (if p.anchor = .relative then t.working else []) p.names = .ok spot := by
  have apart : ∀ answer : Except Obstacle Spot,
      answer.mapError (Error.blocked · p.text) = .ok spot ↔ answer = .ok spot := by
    rintro (obstacle | spot')
    · exact ⟨nofun, nofun⟩
    · exact ⟨fun h => congrArg _ (Except.ok.inj h), fun h => congrArg _ (Except.ok.inj h)⟩
  unfold locate
  dsimp only
  split
  · rename_i null
    refine ⟨nofun, fun h => ?_⟩
    rw [null] at h
    cases h.1
  · rename_i whole
    split
    · rename_i long
      exact ⟨nofun, fun h => absurd h.2.1 (Nat.not_lt.mpr long)⟩
    · rename_i short
      rw [apart]
      exact ⟨fun h => ⟨Bool.eq_false_iff.mpr whole, Nat.lt_of_not_le short, h⟩, fun h => h.2.2⟩

theorem find?_of_locate {content : ByteArray}
    (found : t.locate p = .ok (.taken place (.file content))) :
    t.find? place = some (.file content) :=
  (find?_of_locateFrom (locate_eq_ok_iff.mp found).2.2).1 place content rfl

theorem find?_of_locate_free (found : t.locate p = .ok (.free place)) :
    t.find? place = none :=
  (find?_of_locateFrom (locate_eq_ok_iff.mp found).2.2).2 place rfl

theorem locate_of_keeps (keeps : Keeps t t') {spot : Spot} {content : ByteArray}
    (found : t.locate p = .ok spot)
    (leads : (∃ old, spot = .taken place (.file old)) ∨ spot = .free place)
    (there : t'.find? place = some (.file content)) :
    t'.locate p = .ok (.taken place (.file content)) := by
  obtain ⟨whole, short, found⟩ := locate_eq_ok_iff.mp found
  refine locate_eq_ok_iff.mpr ⟨whole, short, ?_⟩
  rw [keeps.working]
  exact locateFrom_of_keeps keeps found leads there

theorem Keeps.absolute (keeps : Keeps t t') (p : Path) : t'.absolute p = t.absolute p := by
  unfold Tree.absolute
  rw [keeps.working]

/-- A path goes on leading to its file, which begins with what it held. -/
theorem Keeps.locate (keeps : Keeps t t') {content : ByteArray}
    (found : t.locate p = .ok (.taken place (.file content))) :
    ∃ more, t'.locate p = .ok (.taken place (.file (content ++ more))) := by
  obtain ⟨more, there⟩ := keeps.file place content (find?_of_locate found)
  exact ⟨more, locate_of_keeps keeps found (.inl ⟨content, rfl⟩) there⟩

/-- What is written at the end of a file is found at the paths that lead to it. -/
theorem locate_append {content : ByteArray}
    (found : t.locate p = .ok (.taken place (.file content))) (bytes : ByteArray) :
    (t.append place bytes).locate p = .ok (.taken place (.file (content ++ bytes))) :=
  locate_of_keeps (keeps_append t place bytes) found (.inl ⟨content, rfl⟩)
    (find?_append_self bytes (find?_of_locate found))

theorem read_of_locate {content : ByteArray}
    (found : t.locate p = .ok (.taken place (.file content))) : t.read p = .ok content := by
  unfold read
  rw [found]
  rfl

/-! ### Making directories and opening files -/

theorem keeps_makeDirectory (made : t.makeDirectory p = .ok t') : Keeps t t' := by
  unfold makeDirectory at made
  cases found : t.locate p with
  | error e =>
    rw [found] at made
    cases made
  | ok spot =>
    rw [found] at made
    cases spot with
    | taken => cases made
    | free place =>
      cases made
      exact keeps_put (find?_of_locate_free found) _

theorem keeps_keepDirectory (t : Tree) (p : Path) : Keeps t (t.keepDirectory p).1 := by
  unfold keepDirectory
  split
  · rename_i made
    exact keeps_makeDirectory made
  · exact .refl t

theorem keeps_makeUpwards (anchor : Anchor) (names : List String) (t : Tree) :
    Keeps t (makeUpwards anchor names t).1 := by
  -- The directories above are made first, and each of them keeps what there was.
  induction names generalizing t with
  | nil => exact keeps_keepDirectory t _
  | cons name above ih =>
    unfold makeUpwards
    dsimp only
    split
    · have upper := ih t
      split
      · rename_i made
        rw [made] at upper
        exact upper.trans (keeps_keepDirectory _ _)
      · exact upper
    · exact keeps_keepDirectory t _

theorem keeps_makeDirectories (t : Tree) (p : Path) : Keeps t (t.makeDirectories p).1 :=
  keeps_makeUpwards p.anchor p.names.reverse t

/-- A file that is opened is there, and its path leads to it. -/
theorem openAppend_eq_ok (opened : t.openAppend p = .ok (t', place)) :
    Keeps t t' ∧ ∃ content, t'.locate p = .ok (.taken place (.file content)) := by
  unfold openAppend at opened
  cases found : t.locate p with
  | error e =>
    rw [found] at opened
    cases opened
  | ok spot =>
    rw [found] at opened
    cases spot with
    | taken place' entry =>
      cases entry with
      | directory => cases opened
      | file content =>
        cases opened
        exact ⟨.refl t, content, found⟩
    | free place' =>
      cases opened
      have free := find?_of_locate_free found
      have keeps := keeps_put free (.file .empty)
      refine ⟨keeps, .empty, locate_of_keeps keeps found (.inr rfl) ?_⟩
      exact find?_put_self t (ne_nil_of_entry?_eq_none free) _

/-- What comes of opening the file at a path, in a directory that is made if need be: the tree
afterwards, and the place of the file or what stands in the way. The directory is made by the path
as it is, and the file opened by the path from the root. -/
inductive Opens (t : Tree) (p : Path) : Tree → Except Error (List String) → Prop
  /-- The directory cannot be made. -/
  | unmade {t' : Tree} {e : Error} (made : t.makeDirectories p.parent = (t', some e)) :
      Opens t p t' (.error e)
  /-- The file cannot be opened. -/
  | unopened {t' : Tree} {e : Error} (made : t.makeDirectories p.parent = (t', none))
      (opened : t'.openAppend (t'.absolute p) = .error e) : Opens t p t' (.error e)
  /-- The file is open. -/
  | opened {t' t'' : Tree} {place : List String} (made : t.makeDirectories p.parent = (t', none))
      (opened : t'.openAppend (t'.absolute p) = .ok (t'', place)) : Opens t p t'' (.ok place)

theorem exists_opens (t : Tree) (p : Path) : ∃ t' result, Opens t p t' result := by
  cases made : t.makeDirectories p.parent with
  | mk t' failure =>
    cases failure with
    | some e => exact ⟨t', _, .unmade made⟩
    | none =>
      cases opened : t'.openAppend (t'.absolute p) with
      | error e => exact ⟨t', _, .unopened made opened⟩
      | ok result => exact ⟨result.1, _, .opened made opened⟩

theorem Opens.unique {a b : Except Error (List String)} (h : Opens t p t' a)
    (h' : Opens t p t'' b) : t' = t'' ∧ a = b := by
  cases h <;> cases h' <;> simp_all

theorem Opens.keeps {result : Except Error (List String)} (h : Opens t p t' result) :
    Keeps t t' := by
  have made := keeps_makeDirectories t p.parent
  cases h with
  | unmade eq | unopened eq =>
    rw [eq] at made
    exact made
  | opened eq opened =>
    rw [eq] at made
    exact made.trans (openAppend_eq_ok opened).1

theorem Opens.locate (h : Opens t p t' (.ok place)) :
    ∃ content, t'.locate (t'.absolute p) = .ok (.taken place (.file content)) := by
  cases h with
  | opened _ opened =>
    obtain ⟨keeps, found⟩ := openAppend_eq_ok opened
    rwa [keeps.absolute]

end Files.Tree

end Intcode
