/-
Courier.Proofs.Session.Bodies — what a new request depends on outside of its workspace.

That is its body, if the body is read from a file (`bodyPath?`), and nothing else
(`toRequest_cases`). So a draft describes the same request on two disks if that file holds the
same on both (`readBody_congr`), wherever else they differ.

What a file holds is what is on the disk, except if it is the file of a database that is in use
(`Session.readsDatabase`, `read_contents`).
-/
import Courier.Proofs.Disk.Growth
import Courier.Session.Basic

namespace Courier

open Courier.Text Courier.Store Courier.Database

/-! ## Bodies -/

/-- The file that a body is read from, if it is read from one. -/
def bodyPath? (m : Machine) (body : Option String) : Option Path :=
  match body.map String.toList with
  | some ('@' :: path) => ((Path.parse (String.ofList path)).expandHome m).toOption
  | _ => none

theorem readBodyFile_eq_ok {disk : Disk} {path : String} {bytes : Bytes} :
    readBodyFile disk path = .ok bytes ↔ ∃ p, (Path.parse path).expandHome disk.machine = .ok p ∧
      '\x00' ∉ p.text.toList ∧ disk.read p = .ok bytes := by
  unfold readBodyFile
  cases (Path.parse path).expandHome disk.machine with
  | error e => simp [bind, Except.bind]
  | ok p =>
    by_cases hnul : '\x00' ∈ p.text.toList
    · simp [hnul, bind, Except.bind, throw, throwThe, MonadExceptOf.throw]
    · cases hread : disk.read p <;>
        simp [hnul, hread, bind, Except.bind, pure, Except.pure, throw, throwThe,
          MonadExceptOf.throw]

/-- A body is known without a disk, or is what a file holds. -/
theorem readBody_cases (body : Option String) :
    (∃ bytes, ∀ disk, readBody disk body = .ok bytes) ∨
      ∃ path, (∀ disk, readBody disk body = (readBodyFile disk path).map some) ∧
        ∀ m, bodyPath? m body = ((Path.parse path).expandHome m).toOption := by
  unfold readBody bodyPath?
  cases body with
  | none => exact .inl ⟨none, fun _ => rfl⟩
  | some text =>
    dsimp only [Option.map_some]
    split
    next path htext =>
      refine .inr ⟨String.ofList path, fun _ => rfl, fun _ => ?_⟩
      rw [htext]
      rfl
    next => exact .inl ⟨some (encode text), fun _ => rfl⟩

section
variable {disk disk' : Disk} {body : Option String}

/-- A body that can be read can be read where its file can. -/
theorem exists_readBody (hmachine : disk'.machine = disk.machine) {P : Bytes → Bytes → Prop}
    (hread : ∀ p bytes, bodyPath? disk.machine body = some p → disk.read p = .ok bytes →
      ∃ bytes', disk'.read p = .ok bytes' ∧ P bytes bytes')
    {bytes : Option Bytes} (h : readBody disk body = .ok bytes) :
    ∃ bytes', readBody disk' body = .ok bytes' ∧
      (bytes' = bytes ∨ ∃ b b', bytes = some b ∧ bytes' = some b' ∧ P b b') := by
  obtain ⟨known, hknown⟩ | ⟨path, hfile, hpath⟩ := readBody_cases body
  · rw [hknown] at h ⊢
    cases h
    exact ⟨bytes, rfl, .inl rfl⟩
  · rw [hfile] at h
    cases hcontent : readBodyFile disk path with
    | error e =>
      rw [hcontent] at h
      cases h
    | ok content =>
      rw [hcontent] at h
      cases h
      obtain ⟨p, hp, hnul, hbytes⟩ := readBodyFile_eq_ok.1 hcontent
      obtain ⟨content', hbytes', hP⟩ := hread p content (by rw [hpath, hp]; rfl) hbytes
      have hcontent' : readBodyFile disk' path = .ok content' :=
        readBodyFile_eq_ok.2 ⟨p, hmachine ▸ hp, hnul, hbytes'⟩
      exact ⟨some content', by rw [hfile, hcontent']; rfl, .inr ⟨content, content', rfl, rfl, hP⟩⟩

/-- It is the same there if its file is. -/
theorem readBody_of_read (hmachine : disk'.machine = disk.machine)
    (hread : ∀ p bytes, bodyPath? disk.machine body = some p → disk.read p = .ok bytes →
      disk'.read p = .ok bytes)
    {bytes : Option Bytes} (h : readBody disk body = .ok bytes) :
    readBody disk' body = .ok bytes := by
  obtain ⟨bytes', hbytes', rfl | ⟨b, b', rfl, rfl, rfl⟩⟩ :=
    exists_readBody hmachine (fun p bytes hp hbytes => ⟨bytes, hread p bytes hp hbytes, rfl⟩) h
  · exact hbytes'
  · exact hbytes'

theorem toOption_eq_some {α ε : Type} {r : Except ε α} {a : α} :
    r.toOption = some a ↔ r = .ok a := by
  cases r <;> simp [Except.toOption]

theorem readBody_congr (hmachine : disk'.machine = disk.machine)
    (hread : ∀ p, bodyPath? disk.machine body = some p →
      (disk'.read p).toOption = (disk.read p).toOption) :
    (readBody disk' body).toOption = (readBody disk body).toOption := by
  refine Option.ext fun bytes => ?_
  rw [toOption_eq_some, toOption_eq_some]
  refine ⟨readBody_of_read hmachine.symm fun p b hp hb => ?_,
    readBody_of_read hmachine fun p b hp hb => ?_⟩
  · rwa [← toOption_eq_some, ← hread p (hmachine ▸ hp), toOption_eq_some]
  · rwa [← toOption_eq_some, hread p hp, toOption_eq_some]

end

/-! ## Drafts -/

/-- A draft is refused on every disk, or it describes a request in which the body alone depends on
the disk. -/
theorem toRequest_cases (d : Draft) :
    (∃ e, ∀ disk, d.toRequest disk = .error e) ∨
      ∃ r : Request, ∀ disk,
        d.toRequest disk = (readBody disk d.body).map ({ r with body := · }) := by
  unfold Draft.toRequest
  simp only [bind, Except.bind, pure, Except.pure, throw, throwThe, MonadExceptOf.throw]
  split
  · exact .inl ⟨_, fun _ => rfl⟩
  · split
    · exact .inl ⟨_, fun _ => rfl⟩
    · split
      · exact .inl ⟨_, fun _ => rfl⟩
      · cases storedHeaders d.headers with
        | error e => exact .inl ⟨_, fun _ => rfl⟩
        | ok headers =>
          refine .inr ⟨⟨strip d.name, chooseMethod d.method (strip d.name), d.url, headers, none⟩,
            fun disk => ?_⟩
          cases readBody disk d.body <;> rfl

namespace Session

/-- The file that a body is read from, if it is read from one and that can be reached. -/
def bodyPlace? (s : Session) (body : Option String) : Option Place :=
  (bodyPath? s.disk.machine body).bind fun p => (s.disk.locate p).toOption

/-- Whether a body is read from the file of a database that has been opened. -/
def readsDatabase (s : Session) (body : Option String) : Bool :=
  (s.bodyPlace? body).any fun place => s.knows (.file place)

theorem file?_contents (s : Session) (place : Place) :
    s.contents.file? place = (s.disk.file? place).map fun bytes =>
      if place = Disk.nullFile then bytes
      else ((s.saved.lookup (.file place)).map s.host.image).getD bytes := by
  have hlookup (files : List (Place × Bytes)) :
      (files.map fun file =>
        (file.1, ((s.saved.lookup (.file file.1)).map s.host.image).getD file.2)).lookup place
        = (files.lookup place).map fun bytes =>
          ((s.saved.lookup (.file place)).map s.host.image).getD bytes := by
    induction files with
    | nil => rfl
    | cons f files ih =>
      obtain ⟨other, bytes⟩ := f
      rw [List.map_cons, List.lookup_cons, List.lookup_cons, ih]
      by_cases hother : place = other
      · subst hother
        simp
      · simp [beq_false_of_ne hother]
  unfold Disk.file? contents
  split
  · rfl
  · exact hlookup s.disk.files

theorem locate_contents {s : Session} {p : Path} {place : Place} :
    s.contents.locate p = .ok place ↔ s.disk.locate p = .ok place := by
  have hdir (x : Place) : s.contents.hasDir x = s.disk.hasDir x := rfl
  exact Disk.locate_congr hdir

/-- A file that is no database in use is read from the disk. -/
theorem read_contents {s : Session} {p : Path} {place : Place} (hp : s.disk.locate p = .ok place)
    (h : s.knows (.file place) = false) {bytes : Bytes} :
    s.contents.read p = .ok bytes ↔ s.disk.read p = .ok bytes := by
  have hunused : s.saved.lookup (.file place) = none := by simpa [knows] using h
  rw [Disk.read_eq_ok, Disk.read_eq_ok]
  refine exists_congr fun other => ?_
  rw [locate_contents]
  refine and_congr_right fun hother => ?_
  obtain rfl : place = other := by simpa [hp] using hother
  rw [file?_contents, hunused]
  simp [show s.contents.hasDir place = s.disk.hasDir place from rfl]

/-- There is a file to be read if there is one on the disk. -/
theorem exists_read_contents {s : Session} {p : Path} :
    (∃ bytes, s.contents.read p = .ok bytes) ↔ ∃ bytes, s.disk.read p = .ok bytes := by
  have hdir (place : Place) : s.contents.hasDir place = s.disk.hasDir place := rfl
  simp only [Disk.read_eq_ok, locate_contents, hdir, file?_contents, Option.map_eq_some_iff]
  constructor
  · rintro ⟨_, place, hp, hno, bytes, hbytes, -⟩
    exact ⟨bytes, place, hp, hno, hbytes⟩
  · rintro ⟨bytes, place, hp, hno, hbytes⟩
    exact ⟨_, place, hp, hno, bytes, hbytes, rfl⟩

end Session

end Courier
