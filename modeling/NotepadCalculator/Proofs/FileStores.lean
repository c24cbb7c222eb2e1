import NotepadCalculator.Session.Files

/-!
A directory keeps what is written to it. What is found in one is the text of one of its entries, and
writing sets a single entry, so nothing else comes to be found but the text that has been written.
-/
namespace NotepadCalculator

namespace FileStore
variable {σ : Type} [FileStore σ]

theorem run_read (files : σ) (path : String) :
    (Files.read path : StateM σ _).run files = (read files path, files) := rfl

theorem run_write (files : σ) (path text : String) :
    (Files.write path text : StateM σ _).run files = write files path text := rfl

end FileStore

namespace Directory

theorem find_eq_ok {d : Directory} {around : Bool} {name text : String} :
    d.find around name = .ok text ↔
      nameFault? around name = none ∧ d.get? name = some text := by
  unfold find
  cases nameFault? around name with
  | some fault => simp
  | none => cases d.get? name <;> simp

theorem read_eq_ok {d : Directory} {path text : String} : d.read path = .ok text ↔
    pathFault? path = none ∧ ∃ around name, Place.ofPath path = .named around name .nothing ∧
      d.find around name = .ok text := by
  unfold read
  cases pathFault? path with
  | some fault => simp
  | none =>
    cases Place.ofPath path with
    | directory => simp
    | named around name remainder =>
      cases remainder with
      | nothing =>
        constructor
        · exact fun found => ⟨rfl, around, name, rfl, found⟩
        · rintro ⟨_, _, _, place, found⟩
          cases place
          exact found
      | slashes => cases found : d.find around name <;> simp [found, bind, Except.bind]
      | names => cases found : d.find around name <;> simp [found, bind, Except.bind]

theorem mem_of_read {d : Directory} {path text : String} (found : d.read path = .ok text) :
    text ∈ d.map Prod.snd := by
  obtain ⟨_, _, name, _, here⟩ := read_eq_ok.1 found
  have held : d.get? name = some text := (find_eq_ok.1 here).2
  obtain ⟨before, after, rfl, _⟩ := List.lookup_eq_some_iff.1 held
  simp

theorem write_eq_ok {d later : Directory} {path text : String}
    (written : d.write path text = .ok later) : pathFault? path = none ∧ ∃ around name,
      Place.ofPath path = .named around name .nothing ∧ nameFault? around name = none ∧
        later = d.set name text := by
  unfold write at written
  split at written
  · contradiction
  · contradiction
  · contradiction
  · rename_i around name _ _
    cases found : d.find around name <;> rw [found] at written <;> contradiction
  · rename_i around name allowed place
    split at written
    · contradiction
    · rename_i named
      exact ⟨allowed, around, name, place, named, (Except.ok.inj written).symm⟩

theorem read_written {d later : Directory} {path text : String}
    (written : d.write path text = .ok later) : later.read path = .ok text := by
  obtain ⟨allowed, around, name, place, named, rfl⟩ := write_eq_ok written
  refine read_eq_ok.2 ⟨allowed, around, name, place, find_eq_ok.2 ⟨named, ?_⟩⟩
  rw [Bindings.get?_set, if_pos rfl]

theorem read_after_write {d later : Directory} {path text other found : String}
    (written : d.write path text = .ok later) (read : later.read other = .ok found) :
    found = text ∨ d.read other = .ok found := by
  obtain ⟨_, _, target, _, _, rfl⟩ := write_eq_ok written
  obtain ⟨allowed, around, name, place, here⟩ := read_eq_ok.1 read
  obtain ⟨named, held⟩ := find_eq_ok.1 here
  rw [Bindings.get?_set] at held
  split at held
  · exact .inl (Option.some.inj held).symm
  · exact .inr (read_eq_ok.2 ⟨allowed, around, name, place, find_eq_ok.2 ⟨named, held⟩⟩)

theorem store_write_of_ok {d later : Directory} {path text : String}
    (written : d.write path text = .ok later) :
    FileStore.write d path text = (.ok (), later) := by
  simp only [FileStore.write, written]

theorem store_write_of_error {d : Directory} {path text : String} {fault : FileFault}
    (failed : d.write path text = .error fault) :
    FileStore.write d path text = (.error fault, d) := by
  simp only [FileStore.write, failed]

instance : LawfulFileStore Directory where
  read_written := by
    intro d later path text ran
    cases written : d.write path text with
    | ok after =>
      rw [store_write_of_ok written] at ran
      obtain ⟨_, rfl⟩ := Prod.mk.inj ran
      exact read_written written
    | error fault =>
      rw [store_write_of_error written] at ran
      cases ran
  read_after_write := by
    intro d path text other found read
    cases written : d.write path text with
    | ok after =>
      rw [store_write_of_ok written] at read
      rcases read_after_write written read with rfl | before
      · exact .inl List.prefix_rfl
      · exact .inr before
    | error fault =>
      rw [store_write_of_error written] at read
      exact .inr read

end Directory

end NotepadCalculator
