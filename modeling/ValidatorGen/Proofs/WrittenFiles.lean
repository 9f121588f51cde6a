import ValidatorGen.CommandLine.Run
import ValidatorGen.Files.Tree

/-!
# Sources that have been written

Writing a file establishes what is read at its path, and leaves alone what is read at a path that
leads to another place. Sources are written one after the other, so after all of them have been
written the file of each name has the source that was written under that name last.

Files are put at places, and a path is how a place is found. Two paths may lead to one place, so it
is not enough that paths differ: what is needed is that the names at their ends differ, which makes
the places differ, since the last step of a path is by its last name. Writing changes one entry and
no directory, so paths lead where they led (`Tree.find_put`).

Sources are written in order, and a name that comes twice is written twice. What a file has in the
end is decided by the last source of its name, which is proved by induction on the sources before it
and, for those after it, by reading at a path that nothing else is written to.

Main results:

* `Tree.readBytes_of_writeText`, `Tree.readBytes_of_writeText_of_ne` — reading after one write, at
  the same place and at another one;
* `readBytes_of_writeSources` — the last source of a name is what its file has;
* `readBytes_of_writeArtifacts` — if all names are different, each file has its own source.
-/

namespace ValidatorGen

/-- The texts between marks, in the way of the library. -/
theorem Text.splitOn_eq (mark : Char) (text : List Char) :
    Text.splitOn mark text = text.splitOn mark := by
  -- both collect the current part in reverse, so the induction is for any such part
  have hGo : ∀ part : List Char,
      Text.splitOn.go mark part text = text.splitOnPPrepend (· == mark) part := by
    induction text with
    | nil => intro part; rfl
    | cons c rest ih =>
      intro part
      unfold Text.splitOn.go List.splitOnPPrepend
      by_cases hMark : c = mark
      · simp [hMark, ih]
      · simp [hMark, ih]
  exact hGo []

/-- Whether a text is the name of one thing in a directory. Names of artifacts are joined to the
directory, and one that is not of this kind would lead elsewhere. -/
structure IsFileName (name : String) : Prop where
  ne_empty : name ≠ ""
  no_slash : '/' ∉ name.toList
  ne_current : name ≠ "."
  ne_parent : name ≠ ".."

namespace Files

namespace Path

theorem split_of_isFileName {name : String} (hName : IsFileName name) :
    split name = [name.toList] := by
  rw [split, Text.splitOn_eq]
  exact List.splitOnP_eq_singleton fun c hc => by
    simpa using fun hSlash : c = '/' => hName.no_slash (hSlash ▸ hc)

theorem isAbsolute_of_isFileName {name : String} (hName : IsFileName name) :
    isAbsolute name = false :=
  decide_eq_false fun hHead => hName.no_slash (List.mem_of_mem_head? hHead)

/-- A path that leads into a directory ends in the name. What stands before it depends on the
directory alone, and on whether that ends in a slash. -/
theorem exists_split_join {name : String} (hName : IsFileName name) (directory : String) :
    ∃ texts, split (join directory name) = texts ++ [name.toList] := by
  have hSingle : name.toList.splitOn '/' = [name.toList] := by
    rw [← Text.splitOn_eq]
    exact split_of_isFileName hName
  have hSplit : ∀ before : List Char,
      (before ++ '/' :: name.toList).splitOn '/' = before.splitOn '/' ++ [name.toList] := by
    intro before
    rw [← hSingle]
    exact List.splitOnP_append_cons before name.toList (beq_self_eq_true '/')
  unfold split join
  rw [Text.splitOn_eq, isAbsolute_of_isFileName hName]
  split
  · exact ⟨[], hSingle⟩
  · split
    · next hSlash =>
      -- the directory brings its own slash
      obtain ⟨before, hBefore⟩ := List.getLast?_eq_some_iff.1 hSlash
      refine ⟨before.splitOn '/', ?_⟩
      rw [String.toList_append, hBefore, List.append_assoc]
      exact hSplit before
    · refine ⟨directory.toList.splitOn '/', ?_⟩
      rw [String.toList_append, String.toList_append, List.append_assoc]
      exact hSplit directory.toList

end Path

namespace Tree

variable {t u : Tree} {place : Place} {path : String}

/-! ## Places -/

/-- The entry that was put is found at its place. -/
theorem entry?_put (t : Tree) (entry : Entry) (h : place ≠ []) :
    entry? (t.put place entry) place = some entry := by
  unfold entry? put
  rw [if_neg h, List.lookup_cons_self]

/-- At all other places everything is as it was. -/
theorem entry?_put_of_ne (t : Tree) (entry : Entry) {other : Place} (h : other ≠ place) :
    entry? (t.put place entry) other = t.entry? other := by
  -- Dropping the entries of one place keeps the first entry of every other place.
  have hLookup : ∀ entries : List (Place × Entry),
      (entries.filter (·.1 ≠ place)).lookup other = entries.lookup other := by
    intro entries
    induction entries with
    | nil => rfl
    | cons e rest ih =>
      obtain ⟨there, entry⟩ := e
      by_cases hThere : there = place
      · have hOther : (other == there) = false := by
          rw [hThere]
          exact beq_eq_false_iff_ne.2 h
        rw [List.filter_cons_of_neg (by simpa using hThere), ih, List.lookup_cons, hOther]
      · rw [List.filter_cons_of_pos (by simpa using hThere), List.lookup_cons, List.lookup_cons,
          ih]
  unfold entry? put
  have hOther : (other == place) = false := beq_eq_false_iff_ne.2 h
  by_cases hTop : other = []
  · rw [if_pos hTop, if_pos hTop]
  · rw [if_neg hTop, if_neg hTop, List.lookup_cons, hOther]
    exact hLookup t.entries

/-- A step is taken from a directory, and looks at nothing else. -/
theorem entry?_of_step {part : String} {next : Place} (h : t.step place part = .ok next) :
    t.entry? place = some .directory := by
  unfold step at h
  split at h
  · cases h
  · cases h
  · assumption

theorem step_eq_of_entry?_eq (h : u.entry? place = t.entry? place) (part : String) :
    u.step place part = t.step place part := by
  unfold step
  rw [h]

/-- A step by a name leads to the place of that name. -/
theorem step_eq_append {name : String} {next : Place} (hName : IsFileName name)
    (h : t.step place name = .ok next) : next = place ++ [name] := by
  unfold step at h
  split at h
  · cases h
  · cases h
  · rw [if_neg hName.ne_current, if_neg hName.ne_parent] at h
    split at h
    · cases h
    · exact (Except.ok.inj h).symm

/-- A file that is put where no directory is gets in the way of no steps. Steps are taken from
directories only, and what is at the place of the file has been none. -/
theorem foldlM_step_put (content : ByteArray) (hPlace : t.entry? place ≠ some .directory)
    {parts : List String} {start next : Place} (h : parts.foldlM t.step start = .ok next) :
    parts.foldlM (t.put place (.file content)).step start = .ok next := by
  induction parts generalizing start with
  | nil => exact h
  | cons part rest ih =>
    rw [List.foldlM_cons] at h ⊢
    cases hStep : t.step start part with
    | error e =>
      rw [hStep] at h
      cases h
    | ok middle =>
      rw [hStep] at h
      -- the place is no directory, so it is none that is stepped from
      have hOther : start ≠ place := by
        rintro rfl
        exact hPlace (entry?_of_step hStep)
      rw [step_eq_of_entry?_eq (entry?_put_of_ne t _ hOther), hStep]
      exact ih h

/-- The names by which a path goes on from the top. -/
def stepsOf (path : String) : List String :=
  ((Path.split path).filter (· ≠ [])).map String.ofList ++
    if (Path.split path).getLast? = some [] then ["."] else []

/-- A path that leads somewhere in one tree leads where its steps lead in any tree. -/
theorem find_eq_foldlM {found : Place} (h : t.find path = .ok found) (u : Tree) :
    u.find path = (stepsOf path).foldlM u.step [] := by
  unfold find at h ⊢
  dsimp only at h ⊢
  -- the three tests before the steps look at the path alone
  by_cases hEmpty : path.isEmpty = true
  · rw [if_pos hEmpty] at h
    cases h
  · by_cases hZero : path.toList.contains '\x00' = true
    · rw [if_neg hEmpty, if_pos hZero] at h
      cases h
    · rw [if_neg hEmpty, if_neg hZero] at h ⊢
      split at h
      · cases h
      · next hRelative =>
        rw [if_neg hRelative]
        rfl

/-- Paths lead where they led before a file was put. -/
theorem find_put (content : ByteArray) (hPlace : t.entry? place ≠ some .directory)
    {found : Place} (h : t.find path = .ok found) :
    (t.put place (.file content)).find path = .ok found := by
  rw [find_eq_foldlM h]
  exact foldlM_step_put content hPlace (find_eq_foldlM h t ▸ h)

/-- A path into a directory leads to a place with the name at its end. -/
theorem getLast?_of_find_join {name : String} (hName : IsFileName name) {directory : String}
    (h : t.find (Path.join directory name) = .ok place) : place.getLast? = some name := by
  obtain ⟨texts, hTexts⟩ := Path.exists_split_join hName directory
  have hNonempty : name.toList ≠ [] := fun hNil => hName.ne_empty (String.toList_injective hNil)
  have hSteps : stepsOf (Path.join directory name) =
      (texts.filter (· ≠ [])).map String.ofList ++ [name] := by
    unfold stepsOf
    rw [hTexts, List.getLast?_concat, if_neg (by simpa using hNonempty), List.append_nil,
      List.filter_append, List.filter_cons_of_pos (by simpa using hNonempty), List.filter_nil,
      List.map_append, List.map_singleton, String.ofList_toList]
  rw [find_eq_foldlM h, hSteps, List.foldlM_append] at h
  -- the last step is by the name
  cases hReached : ((texts.filter (· ≠ [])).map String.ofList).foldlM t.step [] with
  | error e =>
    rw [hReached] at h
    cases h
  | ok reached =>
    rw [hReached] at h
    cases hStep : t.step reached name with
    | error e =>
      simp only [bind, Except.bind, List.foldlM_cons, hStep] at h
      cases h
    | ok next =>
      simp only [bind, Except.bind, List.foldlM_cons, hStep] at h
      obtain rfl : next = place := Except.ok.inj h
      rw [step_eq_append hName hStep, List.getLast?_concat]

/-! ## One file -/

/-- Writing a file puts it at the place of its path, where no directory may be. -/
theorem put_of_writeText {content : String} (h : t.writeText path content = .ok u) :
    ∃ place, t.find path = .ok place ∧ t.entry? place ≠ some .directory ∧
      u = t.put place (.file content.toUTF8) := by
  unfold writeText at h
  cases hFind : t.find path with
  | error e =>
    rw [hFind] at h
    cases h
  | ok place =>
    rw [hFind] at h
    refine ⟨place, rfl, ?_, ?_⟩
    -- a directory in its place would have been an error
    · intro hDirectory
      simp [bind, Except.bind, hDirectory] at h
    · simp only [bind, Except.bind] at h
      split at h
      · cases h
      · exact (Except.ok.inj h).symm

/-- Reading succeeds exactly where a path leads to a file. -/
theorem readBytes_eq_ok_iff {bytes : ByteArray} :
    t.readBytes path = .ok bytes ↔
      ∃ place, t.find path = .ok place ∧ t.entry? place = some (.file bytes) := by
  unfold readBytes get
  cases t.find path with
  | error e => simp [bind, Except.bind]
  | ok place =>
    cases hEntry : t.entry? place with
    | none => simp [bind, Except.bind, hEntry]
    | some entry => cases entry <;> simp [bind, Except.bind, hEntry]

/-- **What was written is read at its path.** -/
theorem readBytes_of_writeText {content : String} (h : t.writeText path content = .ok u) :
    u.readBytes path = .ok content.toUTF8 := by
  obtain ⟨place, hFind, hPlace, rfl⟩ := put_of_writeText h
  have hBelow : place ≠ [] := by
    rintro rfl
    exact hPlace rfl
  exact readBytes_eq_ok_iff.2 ⟨place, find_put _ hPlace hFind, entry?_put t _ hBelow⟩

/-- **What is read under another name stays as it was.** The directory is the same, so the names
decide. -/
theorem readBytes_of_writeText_of_ne {directory name other content : String} {bytes : ByteArray}
    (hName : IsFileName name) (hOther : IsFileName other) (hNe : other ≠ name)
    (h : t.writeText (Path.join directory name) content = .ok u)
    (hRead : t.readBytes (Path.join directory other) = .ok bytes) :
    u.readBytes (Path.join directory other) = .ok bytes := by
  obtain ⟨place, hFind, hPlace, rfl⟩ := put_of_writeText h
  obtain ⟨there, hThere, hEntry⟩ := readBytes_eq_ok_iff.1 hRead
  -- a place ends in the name of the file, and the two names differ
  have hApart : there ≠ place := by
    rintro rfl
    have hLast := getLast?_of_find_join hName hFind
    rw [getLast?_of_find_join hOther hThere] at hLast
    exact hNe (Option.some.inj hLast)
  refine readBytes_eq_ok_iff.2 ⟨there, find_put _ hPlace hThere, ?_⟩
  rw [entry?_put_of_ne t _ hApart, hEntry]

end Tree

end Files

/-! ## All sources of a pass -/

namespace CommandLine

open Files

variable {t u : Tree} {directory : String}

theorem run_writeText (t : Tree) (path content : String) :
    (Volume.writeText path content : StateM Tree _).run t =
      match t.writeText path content with
      | .ok u => (.ok (), u)
      | .error e => (.error e, t) := rfl

/-- Writing some sources succeeds if the first one can be written, and after it the others. -/
theorem run_writeSources_cons {a : Artifact} {rest : List Artifact}
    (h : (writeSources directory (a :: rest) : StateM Tree _).run t = (.ok (), u)) :
    ∃ v, t.writeText (Path.join directory a.hintName) a.source = .ok v ∧
      (writeSources directory rest : StateM Tree _).run v = (.ok (), u) := by
  unfold writeSources at h
  rw [StateT.run_bind, run_writeText] at h
  cases hWrite : t.writeText (Path.join directory a.hintName) a.source with
  | error e =>
    rw [hWrite] at h
    cases h
  | ok v =>
    rw [hWrite] at h
    exact ⟨v, rfl, h⟩

/-- Sources of other names leave a file as it is. -/
theorem readBytes_of_writeSources_of_ne {name : String} {bytes : ByteArray} {as : List Artifact}
    (hName : IsFileName name) (hNames : ∀ a ∈ as, IsFileName a.hintName)
    (hNe : ∀ a ∈ as, name ≠ a.hintName)
    (h : (writeSources directory as : StateM Tree _).run t = (.ok (), u))
    (hRead : t.readBytes (Path.join directory name) = .ok bytes) :
    u.readBytes (Path.join directory name) = .ok bytes := by
  induction as generalizing t with
  | nil =>
    obtain ⟨-, rfl⟩ := Prod.mk.inj h
    exact hRead
  | cons a rest ih =>
    obtain ⟨v, hWrite, hRest⟩ := run_writeSources_cons h
    -- one file more of another name, and then the rest
    have hKept := Tree.readBytes_of_writeText_of_ne (hNames a List.mem_cons_self) hName
      (hNe a List.mem_cons_self) hWrite hRead
    exact ih (fun b hb => hNames b (List.mem_cons_of_mem a hb))
      (fun b hb => hNe b (List.mem_cons_of_mem a hb)) hRest hKept

/-- **The last source of a name is what its file has.** By induction on the sources before it, none
of which matters. -/
theorem readBytes_of_writeSources {before after : List Artifact} {a : Artifact}
    (hNames : ∀ b ∈ before ++ a :: after, IsFileName b.hintName)
    (hLast : ∀ b ∈ after, a.hintName ≠ b.hintName)
    (h : (writeSources directory (before ++ a :: after) : StateM Tree _).run t = (.ok (), u)) :
    u.readBytes (Path.join directory a.hintName) = .ok a.source.toUTF8 := by
  induction before generalizing t with
  | nil =>
    obtain ⟨v, hWrite, hRest⟩ := run_writeSources_cons h
    -- written once, it is kept by all that follow, since they have other names
    have hEstablished := Tree.readBytes_of_writeText hWrite
    exact readBytes_of_writeSources_of_ne (hNames a List.mem_cons_self)
      (fun b hb => hNames b (List.mem_cons_of_mem a hb)) hLast hRest hEstablished
  | cons b before ih =>
    obtain ⟨v, -, hRest⟩ := run_writeSources_cons h
    exact ih (fun other hOther => hNames other (List.mem_cons_of_mem b hOther)) hRest

/-- **If all names are different, each file has its own source**, once all sources have been
written. -/
theorem readBytes_of_writeArtifacts {o : PassOutput}
    (hNames : ∀ a ∈ o.artifacts, IsFileName a.hintName)
    (hNodup : (o.artifacts.map Artifact.hintName).Nodup)
    (h : (writeArtifacts directory o : StateM Tree _).run t = (.ok (), u)) :
    ∀ a ∈ o.artifacts, u.readBytes (Path.join directory a.hintName) = .ok a.source.toUTF8 := by
  intro a ha
  obtain ⟨v, hSources⟩ : ∃ v, (writeSources directory o.artifacts : StateM Tree _).run v =
      (.ok (), u) := by
    unfold writeArtifacts at h
    rw [StateT.run_bind] at h
    generalize (Volume.makeDirectories directory : StateM Tree _).run t = made at h
    obtain ⟨result, v⟩ := made
    cases result with
    | error e => cases h
    | ok => exact ⟨v, h⟩
  -- What is written before the artifact does not matter, and what is written after it has other
  -- names.
  obtain ⟨before, after, hSplit⟩ := List.append_of_mem ha
  rw [hSplit] at hNames hNodup hSources
  refine readBytes_of_writeSources hNames (fun b hb hSame => ?_) hSources
  rw [List.map_append, List.map_cons] at hNodup
  have hNotMem := (List.nodup_cons.1 (List.nodup_append.1 hNodup).2.1).1
  exact hNotMem (hSame ▸ List.mem_map_of_mem hb)

end CommandLine

end ValidatorGen
