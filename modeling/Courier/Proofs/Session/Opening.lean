/-
Courier.Proofs.Session.Opening — what opening a workspace does to the disk.

In a data directory that is no URI every workspace has a file of its own
(`locationOf_plain`, `databasePlace_injective`). Opening a workspace makes the data directory
and leaves a blank file, even if it fails, and that is all it ever does. `Opened d₀ dir d`
says that the disk `d` can have come of `d₀` in this way, whichever workspaces were opened.

All such disks are one to the workspaces: how the opening of one ends does not depend on
which others were opened before (`Opened.outcome`), and a workspace that was opened can be
opened again without a change (`Opened.reopen`).
-/
import Courier.Proofs.Disk.Growth
import Courier.Session.Basic

namespace Courier

open Courier.Text Courier.Database

/-! ## Names of workspaces -/

theorem char_of_isWorkspaceName {name : String} (h : isWorkspaceName name = true) {c : Char}
    (hc : c ∈ name.toList) : isWorkspaceChar c = true ∨ c = '\n' := by
  simp only [isWorkspaceName, Bool.and_eq_true, List.all_eq_true] at h
  have hall := h.1.2
  unfold dropLineEnd at hall
  split at hall
  next hlast =>
    rw [← List.dropLast_append_getLast? _ hlast, List.mem_append, List.mem_singleton] at hc
    exact hc.imp_left (hall c)
  next => exact .inl (hall c hc)

theorem ne_of_isWorkspaceName {name : String} (h : isWorkspaceName name = true) {c : Char}
    (hc : c ∈ name.toList) : c ≠ '/' ∧ c ≠ ':' := by
  rcases char_of_isWorkspaceName h hc with hchar | rfl
  · constructor <;> (rintro rfl; exact absurd hchar (by decide))
  · decide

/-- Whether a data directory is an ordinary path: a name that begins with the scheme of URIs
makes the name of every database a URI. -/
def isPlainDir (dir : Path) : Bool := !startsWith uriScheme dir.text

/-- The file of a workspace. -/
def databaseFile (name : String) : String := name ++ databaseSuffix

theorem toList_databaseFile (name : String) :
    (databaseFile name).toList = name.toList ++ ['.', 'd', 'b'] := by
  rw [databaseFile, String.toList_append]
  rfl

theorem databaseFile_injective {name name' : String} (h : databaseFile name = databaseFile name') :
    name = name' := by
  have hlist := congrArg String.toList h
  rw [toList_databaseFile, toList_databaseFile, List.append_cancel_right_eq] at hlist
  exact String.toList_inj.1 hlist

theorem databaseFile_ne_dots (name : String) : databaseFile name ≠ "." ∧ databaseFile name ≠ ".." := by
  constructor <;>
  · intro h
    have hlength := congrArg (fun s => s.toList.length) h
    simp [toList_databaseFile] at hlength

/-- The name of a workspace is one step of a path. -/
theorem parse_databaseFile {name : String} (h : isWorkspaceName name = true) :
    Path.parse (databaseFile name) = ⟨"", [databaseFile name]⟩ := by
  have hslash : '/' ∉ (databaseFile name).toList := by
    rw [toList_databaseFile, List.mem_append]
    rintro (hc | hc)
    · exact (ne_of_isWorkspaceName h hc).1 rfl
    · exact absurd hc (by decide)
  have hanchor : (databaseFile name).toList.takeWhile (· = '/') = [] := by
    cases hlist : (databaseFile name).toList with
    | nil => rfl
    | cons c cs =>
      rw [hlist] at hslash
      have hc : c ≠ '/' := fun heq => hslash (heq ▸ List.mem_cons_self)
      simp [hc]
  have hsteps : splitOn '/' (databaseFile name) = [databaseFile name] := by
    rw [splitOn, List.splitOn_eq_singleton hslash]
    simp
  have hnonempty : (databaseFile name).isEmpty = false := by
    rw [← Bool.not_eq_true, String.isEmpty_iff]
    intro hnil
    have hlength := congrArg (fun s => s.toList.length) hnil
    simp [toList_databaseFile] at hlength
  simp [Path.parse, Path.stepsOf, hanchor, hsteps, hnonempty, (databaseFile_ne_dots name).1,
    Path.anchorOf]

/-! ## Locations -/

/-- The place of a data directory, by its steps alone. -/
def dirPlace (dir : Path) : Place := ((Disk.plainPlaces dir).getLast?).getD []

/-- The place of the database of a workspace. -/
def databasePlace (dir : Path) (name : String) : Place := dirPlace dir ++ [databaseFile name]

/-- The location of a workspace in an ordinary data directory. -/
def plainLocation (dir : Path) (name : String) : Location :=
  { home := .file (databasePlace dir name)
    way := Disk.plainPlaces dir ++ [databasePlace dir name] }

theorem databasePlace_injective {dir : Path} {name name' : String}
    (h : databasePlace dir name = databasePlace dir name') : name = name' := by
  rw [databasePlace, databasePlace, List.append_cancel_left_eq] at h
  exact databaseFile_injective (List.singleton_inj.1 h)

theorem plainVisits_concat (place : Place) (steps : List String) {step : String}
    (h : step ≠ "..") : Disk.plainVisits place (steps ++ [step]) =
      Disk.plainVisits place steps ++
        [((place :: Disk.plainVisits place steps).getLast?).getD [] ++ [step]] := by
  induction steps generalizing place with
  | nil => simp [Disk.plainVisits, h]
  | cons first steps ih =>
    rw [List.cons_append, Disk.plainVisits, Disk.plainVisits]
    simp [ih, List.getLast?_cons_cons]

theorem databasePath_eq {name : String} (h : isWorkspaceName name = true) (dir : Path) :
    databasePath dir name = { dir with steps := dir.steps ++ [databaseFile name] } := by
  rw [databasePath]
  show dir.join (Path.parse (databaseFile name)) = _
  rw [parse_databaseFile h]
  rfl

/-- The scheme of URIs ends in a colon, so it is not finished behind the data directory. -/
theorem startsWith_databasePath {dir : Path} {name : String} (hname : isWorkspaceName name = true)
    (hdir : isPlainDir dir = true) : startsWith uriScheme (databasePath dir name).text = false := by
  obtain ⟨gap, hgap, htext⟩ := Disk.text_concat dir.anchor dir.steps (databaseFile name)
  have hcolon : ':' ∉ gap ++ (databaseFile name).toList := by
    rw [List.mem_append, toList_databaseFile, List.mem_append]
    rintro (hc | hc | hc)
    · rcases hgap with rfl | rfl
      · exact List.not_mem_nil hc
      · exact absurd hc (by decide)
    · exact (ne_of_isWorkspaceName hname hc).2 rfl
    · exact absurd hc (by decide)
  rw [← Bool.not_eq_true, startsWith, List.isPrefixOf_iff_prefix, databasePath_eq hname, htext,
    ← String.toList_append]
  rintro ⟨rest, hrest⟩
  have hscheme : uriScheme.toList <+: (dir.anchor ++ "/".intercalate dir.steps).toList := by
    rcases List.append_eq_append_iff.1 hrest with ⟨tail, htail, -⟩ | ⟨tail, htail, hfile⟩
    · exact ⟨tail, htail.symm⟩
    · cases hlast : tail.getLast? with
      | none =>
        rw [List.getLast?_eq_none_iff.1 hlast, List.append_nil] at htail
        exact ⟨[], by rw [htail, List.append_nil]⟩
      | some c =>
        have hc : uriScheme.toList.getLast? = some c := by
          rw [htail, List.getLast?_append, hlast, Option.some_or]
        rw [show uriScheme.toList.getLast? = some ':' from rfl, Option.some.injEq] at hc
        subst hc
        exact absurd (hfile ▸ List.mem_append_left _ (List.mem_of_getLast? hlast)) hcolon
  simp only [isPlainDir, Bool.not_eq_true', ← Bool.not_eq_true, startsWith,
    List.isPrefixOf_iff_prefix, Path.text] at hdir
  split at hdir
  next hempty =>
    rw [Bool.and_eq_true, String.isEmpty_iff, List.isEmpty_iff] at hempty
    rw [hempty.1, hempty.2] at hscheme
    exact absurd hscheme (by decide)
  next => exact hdir hscheme

theorem locationOf_plain {dir : Path} {name : String} (hname : isWorkspaceName name = true)
    (hdir : isPlainDir dir = true) : locationOf dir name = .ok (plainLocation dir name) := by
  have hplaces : Disk.plainPlaces (databasePath dir name) =
      Disk.plainPlaces dir ++ [databasePlace dir name] := by
    rw [databasePath_eq hname]
    show Disk.start dir :: Disk.plainVisits (Disk.start dir) (dir.steps ++ [databaseFile name]) = _
    rw [plainVisits_concat _ _ (databaseFile_ne_dots name).2]
    rfl
  rw [locationOf, Location.ofName, startsWith_databasePath hname hdir]
  simp [Location.ofPath, hplaces, plainLocation]

/-! ## Disks with the same directories -/

/-- Two disks of one machine have the same directories, and nothing that is a directory on one of
them is a file on the other. -/
structure SameDirs (m d : Disk) : Prop where
  dirs : ∀ place, d.hasDir place = m.hasDir place
  files : ∀ place, m.hasDir place = true → d.file? place = m.file? place
  machine : d.machine = m.machine

/-- What is found among some files can be found among those of them that are kept. -/
theorem lookup_filter_of (keep : Place → Bool) {x : Place} (h : keep x = true)
    (files : List (Place × Bytes)) :
    (files.filter fun f => keep f.1).lookup x = files.lookup x := by
  induction files with
  | nil => rfl
  | cons f files ih =>
    obtain ⟨y, bytes⟩ := f
    cases hy : keep y with
    | true => simp only [List.filter_cons, hy, if_true, List.lookup_cons, ih]
    | false =>
      have hxy : (x == y) = false := beq_false_of_ne fun heq => by simp [← heq, h] at hy
      simp only [List.filter_cons, hy, Bool.false_eq_true, if_false, List.lookup_cons, hxy, ih]

/-! ## Blank files -/

/-- The second disk has blank files that the first one does not have, and is the same otherwise. -/
structure AddsBlanks (m d : Disk) : Prop where
  dirs : ∀ place, d.hasDir place = m.hasDir place
  files : ∀ place bytes, m.file? place = some bytes → d.file? place = some bytes
  blank : ∀ place bytes, d.file? place = some bytes →
    m.file? place = some bytes ∨ m.file? place = none ∧ m.hasDir place = false ∧ bytes = []
  machine : d.machine = m.machine

theorem AddsBlanks.refl (m : Disk) : AddsBlanks m m :=
  ⟨fun _ => rfl, fun _ _ => id, fun _ _ => .inl, rfl⟩

theorem AddsBlanks.bytes {m d : Disk} (h : AddsBlanks m d) (place : Place) :
    (d.file? place).getD [] = (m.file? place).getD [] := by
  cases hd : d.file? place with
  | none =>
    cases hm : m.file? place with
    | none => rfl
    | some bytes => exact nomatch hd.symm.trans (h.files place bytes hm)
  | some bytes =>
    rcases h.blank place bytes hd with hm | ⟨hm, -, rfl⟩
    · rw [hm]
    · rw [hm]
      rfl

theorem AddsBlanks.file?_of_hasDir {m d : Disk} (h : AddsBlanks m d) {place : Place}
    (hplace : m.hasDir place = true) : d.file? place = m.file? place := by
  cases hd : d.file? place with
  | none =>
    cases hm : m.file? place with
    | none => rfl
    | some bytes => exact nomatch hd.symm.trans (h.files place bytes hm)
  | some bytes =>
    rcases h.blank place bytes hd with hm | ⟨-, hnodir, -⟩
    · exact hm.symm
    · exact nomatch hplace.symm.trans hnodir

theorem AddsBlanks.sameDirs {m d : Disk} (h : AddsBlanks m d) : SameDirs m d :=
  ⟨h.dirs, fun _ => h.file?_of_hasDir, h.machine⟩

/-- Of two disks with blank files one extends the other if it has its files. -/
theorem AddsBlanks.extends {m d d' : Disk} (h : AddsBlanks m d) (h' : AddsBlanks m d')
    (hfiles : ∀ place bytes, d.file? place = some bytes → d'.file? place = some bytes) :
    d.Extends d' where
  dirs := by
    intro place hplace
    rwa [h'.dirs, ← h.dirs]
  files := hfiles
  clear := by
    intro place hplace
    left
    rwa [h.dirs, ← h'.dirs]
  machine := h'.machine.trans h.machine.symm

/-- The disk with a file at a place, which is blank if there was none. -/
def touch (d : Disk) (place : Place) : Disk :=
  if (d.file? place).isSome then d else d.write place []

theorem touch_of_isSome {d : Disk} {place : Place} (h : (d.file? place).isSome = true) :
    touch d place = d :=
  if_pos h

theorem hasDir_touch (d : Disk) (place x : Place) : (touch d place).hasDir x = d.hasDir x := by
  unfold touch
  split <;> rfl

theorem machine_touch (d : Disk) (place : Place) : (touch d place).machine = d.machine := by
  unfold touch
  split <;> rfl

theorem file?_touch (d : Disk) (place x : Place) :
    (touch d place).file? x = if x = place then some ((d.file? x).getD []) else d.file? x := by
  unfold touch
  cases hfile : d.file? place with
  | some bytes =>
    by_cases hx : x = place
    · simp [hx, hfile]
    · simp [hx]
  | none =>
    have hnull : place ≠ Disk.nullFile := by
      rintro rfl
      simp [Disk.file?] at hfile
    by_cases hx : x = place
    · rw [hx, hfile]
      simp [Disk.write, Disk.file?, hnull]
    · simp only [Option.isSome_none, Bool.false_eq_true, if_false, hx, Disk.write, Disk.file?,
        List.lookup_cons, beq_false_of_ne hx, lookup_filter_of (· ≠ place) (decide_eq_true hx)]

theorem AddsBlanks.touched {m d : Disk} (h : AddsBlanks m d) {place : Place}
    (hplace : m.hasDir place = false) : AddsBlanks m (touch d place) where
  dirs := fun x => (hasDir_touch d place x).trans (h.dirs x)
  files := by
    intro x bytes hx
    rw [file?_touch, h.files x bytes hx]
    split <;> rfl
  blank := by
    intro x bytes hx
    rw [file?_touch] at hx
    split at hx
    next hsame =>
      subst hsame
      cases hd : d.file? x with
      | some old =>
        rw [hd] at hx
        exact h.blank x bytes (hd.trans hx)
      | none =>
        rw [hd] at hx
        right
        refine ⟨?_, hplace, (Option.some.inj hx).symm⟩
        cases hm : m.file? x with
        | none => rfl
        | some old => exact nomatch hd.symm.trans (h.files x old hm)
    next => exact h.blank x bytes hx
  machine := (machine_touch d place).trans h.machine

theorem AddsBlanks.touched_extends {m d d' : Disk} (h : AddsBlanks m d) (h' : AddsBlanks m d')
    (hextends : d.Extends d') {place : Place} (hplace : m.hasDir place = false) :
    (touch d place).Extends (touch d' place) := by
  refine (h.touched hplace).extends (h'.touched hplace) ?_
  intro x bytes hx
  rw [file?_touch] at hx ⊢
  split
  next hsame =>
    rw [if_pos hsame, h.bytes] at hx
    rw [h'.bytes, hx]
  next hother =>
    rw [if_neg hother] at hx
    exact hextends.files x bytes hx

theorem extends_touch {m d : Disk} (h : AddsBlanks m d) {place : Place}
    (hplace : m.hasDir place = false) : d.Extends (touch d place) := by
  refine h.extends (h.touched hplace) ?_
  intro x bytes hx
  rw [file?_touch, hx]
  split <;> rfl

/-! ## Opening a database -/

section
variable {m d : Disk} {dir : Path} {name : String}

theorem dirPlace_mem (dir : Path) : dirPlace dir ∈ Disk.plainPlaces dir := by
  have hlast := List.getLast?_eq_some_getLast (List.cons_ne_nil (Disk.start dir)
    (Disk.plainVisits (Disk.start dir) dir.steps))
  have hplaces : Disk.plainPlaces dir =
      Disk.start dir :: Disk.plainVisits (Disk.start dir) dir.steps := rfl
  rw [dirPlace, hplaces, hlast]
  exact List.getLast_mem _

theorem any_congr_of_mem {α : Type} {xs : List α} {p q : α → Bool} (h : ∀ x ∈ xs, p x = q x) :
    xs.any p = xs.any q := by
  rw [Bool.eq_iff_iff, List.any_eq_true, List.any_eq_true]
  exact exists_congr fun x => and_congr_right fun hx => by rw [h x hx]

/-- All that lies above the places on the way to a database are directories. -/
theorem hasDir_above (hdir : m.isDir dir = true) {place : Place}
    (hplace : place ∈ (plainLocation dir name).way) {n : Nat} (hn : n < place.length) :
    m.hasDir (place.take n) = true := by
  rcases List.mem_append.1 hplace with hplace | hplace
  · exact Disk.rooted_of_isDir hdir place hplace n
  · rw [List.mem_singleton.1 hplace] at hn ⊢
    rw [databasePlace, List.length_append, List.length_singleton, Nat.lt_succ_iff] at hn
    rw [databasePlace, List.take_append_of_le_length hn]
    exact Disk.rooted_of_isDir hdir _ (dirPlace_mem dir) n

theorem isBarred_congr (h : SameDirs m d) (hdir : m.isDir dir = true) {place : Place}
    (hplace : place ∈ (plainLocation dir name).way) : isBarred d place = isBarred m place := by
  have hfiles : (List.range place.length).any (fun n => (d.file? (place.take n)).isSome) =
      (List.range place.length).any fun n => (m.file? (place.take n)).isSome := by
    refine any_congr_of_mem fun n hn => ?_
    rw [h.files _ (hasDir_above hdir hplace (List.mem_range.1 hn))]
  rw [isBarred, isBarred, hfiles, Disk.fullLength, Disk.fullLength, h.machine]

/-- Files in the directories do not keep a database from being opened, nor does its own. -/
theorem fileFault?_congr (h : SameDirs m d) (hdir : m.isDir dir = true) :
    fileFault? d (databasePlace dir name) (plainLocation dir name) =
      fileFault? m (databasePlace dir name) (plainLocation dir name) := by
  have hway : (plainLocation dir name).way.any (isBarred d) =
      (plainLocation dir name).way.any (isBarred m) :=
    any_congr_of_mem fun _ hplace => isBarred_congr h hdir hplace
  have hroot : m.hasDir (databasePlace dir name).dropLast = true := by
    rw [databasePlace, List.dropLast_concat]
    exact (Disk.rooted_of_isDir hdir _ (dirPlace_mem dir)).hasDir
  rw [fileFault?, fileFault?, hway, h.dirs, h.dirs, hroot, Disk.fullLength, Disk.fullLength,
    h.machine]
  have hlender : (plainLocation dir name).lender = none := rfl
  have hmode : (plainLocation dir name).mode = .create := rfl
  simp [hlender, hmode]

theorem tablesFault?_congr (h : SameDirs m d) {place : Place}
    (hbytes : (d.file? place).getD [] = (m.file? place).getD []) (l : Location) (known : Bool) :
    tablesFault? d place l known = tablesFault? m place l known := by
  simp only [tablesFault?, blankFault?, hbytes, h.dirs]

/-- Tables that could be made can be used. -/
theorem tablesFault?_known {place : Place} {l : Location} {known : Bool}
    (h : tablesFault? m place l known = none) (hfrozen : l.frozen = false) :
    tablesFault? m place l true = none := by
  cases known with
  | true => exact h
  | false =>
    simp only [tablesFault?, hfrozen, Bool.false_eq_true, if_false, Bool.not_false, Bool.true_and,
      Bool.not_true, Bool.false_and, if_true] at h ⊢
    split at h
    · simp only [blankFault?] at h
      split at h
      · exact nomatch h
      · split at h
        · exact nomatch h
        · split at h
          · exact nomatch h
          · simp_all
    · split at h
      · exact nomatch h
      · split at h
        · exact nomatch h
        · simp_all

theorem hasDir_of_fileFault?_none {place : Place} {l : Location}
    (h : fileFault? m place l = none) : m.hasDir place = false := by
  cases hplace : m.hasDir place with
  | false => rfl
  | true =>
    simp only [fileFault?, hplace, if_true] at h
    split at h
    · exact nomatch h
    · split at h <;> exact nomatch h

/-- How a workspace is opened in a data directory that is there. -/
theorem openWorkspace_eq {e : Disk} (hname : isWorkspaceName name = true)
    (hplain : isPlainDir dir = true) (hmade : d.makeDirs dir = (none, e)) (he : AddsBlanks m e)
    (hm : m.isDir dir = true) (known : Home → Bool) :
    openWorkspace d known dir name =
      match fileFault? m (databasePlace dir name) (plainLocation dir name) with
      | some fault => (.error fault, e)
      | none =>
        match tablesFault? m (databasePlace dir name) (plainLocation dir name)
          (known (.file (databasePlace dir name))) with
        | some fault => (.error fault, touch e (databasePlace dir name))
        | none => (.ok (plainLocation dir name), touch e (databasePlace dir name)) := by
  have hopen : openDatabase e (plainLocation dir name) (known (plainLocation dir name).home) =
      match fileFault? m (databasePlace dir name) (plainLocation dir name) with
      | some fault => (some fault, e)
      | none => (tablesFault? m (databasePlace dir name) (plainLocation dir name)
          (known (.file (databasePlace dir name))), touch e (databasePlace dir name)) := by
    rw [← fileFault?_congr he.sameDirs hm, ← tablesFault?_congr he.sameDirs (he.bytes _)]
    rfl
  rw [openWorkspace, hmade]
  simp only [locationOf_plain hname hplain, hopen]
  cases fileFault? m (databasePlace dir name) (plainLocation dir name) with
  | some fault => rfl
  | none =>
    dsimp only
    cases tablesFault? m (databasePlace dir name) (plainLocation dir name)
      (known (.file (databasePlace dir name))) <;> rfl

/-- A workspace that can be opened is where its name says. -/
theorem locationOf_eq_ok {known : Home → Bool} {l : Location}
    (h : (openWorkspace d known dir name).1 = .ok l) : locationOf dir name = .ok l := by
  unfold openWorkspace at h
  rcases hmade : d.makeDirs dir with ⟨_ | failure, m⟩
  · rw [hmade] at h
    cases hlocation : locationOf dir name with
    | error fault =>
      rw [hlocation] at h
      exact nomatch h
    | ok l' =>
      rw [hlocation] at h
      dsimp only at h
      rcases hopen : openDatabase m l' (known l'.home) with ⟨_ | fault, e⟩
      · rw [hopen] at h
        exact h
      · rw [hopen] at h
        exact nomatch h
  · rw [hmade] at h
    exact nomatch h

theorem openWorkspace_location {known : Home → Bool} {l : Location}
    (hname : isWorkspaceName name = true) (hplain : isPlainDir dir = true)
    (h : (openWorkspace d known dir name).1 = .ok l) : l = plainLocation dir name :=
  (Except.ok.inj ((locationOf_plain hname hplain).symm.trans (locationOf_eq_ok h))).symm

theorem openWorkspace_eq_error {failure : IoFault × Path} (h : d.makeDirs dir = (some failure, m))
    (known : Home → Bool) (name : String) :
    openWorkspace d known dir name = (.error (.directory failure.1 failure.2.text), m) := by
  rw [openWorkspace, h]

end

/-! ## Opening workspaces -/

/-- What a disk can become when workspaces are opened in a data directory. -/
inductive Opened (d₀ : Disk) (dir : Path) : Disk → Prop
  /-- Nothing, before the first one. -/
  | fresh : Opened d₀ dir d₀
  /-- The data directory could not be made. -/
  | failed {m : Disk} {failure : IoFault × Path} (h : d₀.makeDirs dir = (some failure, m)) :
    Opened d₀ dir m
  /-- The data directory is there, and in it are blank files. -/
  | made {m d : Disk} (h : d₀.makeDirs dir = (none, m)) (hd : AddsBlanks m d) : Opened d₀ dir d

section
variable {d₀ d : Disk} {dir : Path} {name : String}

/-- The data directory can be made on such a disk if it could be made at first. -/
theorem Opened.makeDirs (h : Opened d₀ dir d) :
    (∃ m failure failure', d₀.makeDirs dir = (some failure, m) ∧
      d.makeDirs dir = (some failure', m) ∧ d.Extends m) ∨
    ∃ m e, d₀.makeDirs dir = (none, m) ∧ d.makeDirs dir = (none, e) ∧ AddsBlanks m e ∧
      d.Extends e ∧ m.isDir dir = true ∧ (e = d ∨ e = m) := by
  have hdir {m : Disk} (h : d₀.makeDirs dir = (none, m)) : m.isDir dir = true := by
    have hmade := Disk.isDir_makeDirs (d := d₀) (p := dir)
    rw [h] at hmade
    exact hmade rfl
  cases h with
  | fresh =>
    have hextends := Disk.extends_makeDirs d₀ dir
    rcases hmade : d₀.makeDirs dir with ⟨_ | failure, m⟩
    · rw [hmade] at hextends
      exact .inr ⟨m, m, rfl, rfl, .refl m, hextends, hdir hmade, .inr rfl⟩
    · rw [hmade] at hextends
      exact .inl ⟨m, failure, failure, rfl, rfl, hextends⟩
  | failed h =>
    obtain ⟨failure', hagain⟩ := Disk.makeDirs_fails_again h
    exact .inl ⟨_, _, failure', h, hagain, .refl _⟩
  | made h hd =>
    have hextends := (AddsBlanks.refl _).extends hd hd.files
    exact .inr ⟨_, _, h, Disk.makeDirs_isDir (hextends.isDir (hdir h)), hd, .refl _, hdir h,
      .inl rfl⟩

/-- How the opening of a workspace ends does not depend on which were opened before. -/
theorem Opened.outcome (h : Opened d₀ dir d) (hname : isWorkspaceName name = true)
    (hplain : isPlainDir dir = true) (known : Home → Bool) :
    (openWorkspace d known dir name).1.toOption =
      (openWorkspace d₀ known dir name).1.toOption := by
  rcases h.makeDirs with ⟨m, failure, failure', h₀, hd, -⟩ | ⟨m, e, h₀, hd, he, -, hm, -⟩
  · rw [openWorkspace_eq_error h₀, openWorkspace_eq_error hd]
    rfl
  · rw [openWorkspace_eq hname hplain h₀ (.refl m) hm, openWorkspace_eq hname hplain hd he hm]
    cases fileFault? m (databasePlace dir name) (plainLocation dir name) with
    | some fault => rfl
    | none =>
      dsimp only
      cases tablesFault? m (databasePlace dir name) (plainLocation dir name)
        (known (.file (databasePlace dir name))) <;> rfl

/-- The disk behind the opening of a workspace, if its directory is there. -/
theorem openWorkspace_disk {m e : Disk} (hname : isWorkspaceName name = true)
    (hplain : isPlainDir dir = true) (hmade : d.makeDirs dir = (none, e)) (he : AddsBlanks m e)
    (hm : m.isDir dir = true) (known : Home → Bool) :
    (openWorkspace d known dir name).2 =
      if (fileFault? m (databasePlace dir name) (plainLocation dir name)).isSome then e
      else touch e (databasePlace dir name) := by
  rw [openWorkspace_eq hname hplain hmade he hm]
  cases fileFault? m (databasePlace dir name) (plainLocation dir name) with
  | some fault => rfl
  | none =>
    dsimp only
    cases tablesFault? m (databasePlace dir name) (plainLocation dir name)
      (known (.file (databasePlace dir name))) <;> rfl

/-- Opening a workspace leaves such a disk again, which has what the disk before it had. -/
theorem Opened.opens (h : Opened d₀ dir d) (hname : isWorkspaceName name = true)
    (hplain : isPlainDir dir = true) (known : Home → Bool) :
    Opened d₀ dir (openWorkspace d known dir name).2 ∧
      d.Extends (openWorkspace d known dir name).2 := by
  rcases h.makeDirs with ⟨m, failure, failure', h₀, hd, hextends⟩ | ⟨m, e, h₀, hd, he, hextends, hm, -⟩
  · rw [openWorkspace_eq_error hd]
    exact ⟨.failed h₀, hextends⟩
  · rw [openWorkspace_disk hname hplain hd he hm]
    split
    next => exact ⟨.made h₀ he, hextends⟩
    next hfault =>
      have hplace := hasDir_of_fileFault?_none (Option.not_isSome_iff_eq_none.1 hfault)
      exact ⟨.made h₀ (he.touched hplace), hextends.trans (extends_touch he hplace)⟩

/-- Opening the same workspace on two disks keeps what one of them has on the other. -/
theorem Opened.opens_extends {d' : Disk} (h : Opened d₀ dir d) (h' : Opened d₀ dir d')
    (hextends : d.Extends d') (hname : isWorkspaceName name = true)
    (hplain : isPlainDir dir = true) (known : Home → Bool) :
    (openWorkspace d known dir name).2.Extends (openWorkspace d' known dir name).2 := by
  rcases h'.makeDirs with ⟨m, failure, failure', h₀, hd', hm⟩ | ⟨m, e', h₀, hd', he', hgrowth, hm, -⟩
  · rcases h.makeDirs with ⟨n, _, _, hn, hd, -⟩ | ⟨n, e, hn, -⟩
    · obtain ⟨-, rfl⟩ := Prod.mk.inj (h₀.symm.trans hn)
      rw [openWorkspace_eq_error hd, openWorkspace_eq_error hd']
      exact .refl m
    · exact nomatch h₀.symm.trans hn
  · rcases h.makeDirs with ⟨n, _, _, hn, -⟩ | ⟨n, e, hn, hd, he, -, -, hsame⟩
    · exact nomatch h₀.symm.trans hn
    · obtain ⟨-, rfl⟩ := Prod.mk.inj (h₀.symm.trans hn)
      have hmade : e.Extends e' := by
        rcases hsame with rfl | rfl
        · exact hextends.trans hgrowth
        · exact he.extends he' he'.files
      rw [openWorkspace_disk hname hplain hd he hm, openWorkspace_disk hname hplain hd' he' hm]
      split
      next => exact hmade
      next hfault =>
        have hplace := hasDir_of_fileFault?_none (Option.not_isSome_iff_eq_none.1 hfault)
        exact he.touched_extends he' hmade hplace

/-- Nothing that was there is gone. -/
theorem Opened.grown (h : Opened d₀ dir d) : d₀.Extends d := by
  have hmade := Disk.extends_makeDirs d₀ dir
  cases h with
  | fresh => exact .refl d₀
  | failed h =>
    rw [h] at hmade
    exact hmade
  | made h hd =>
    rw [h] at hmade
    exact hmade.trans ((AddsBlanks.refl _).extends hd hd.files)

/-- A workspace that was opened is there, and opening it again does nothing, whichever ones were
opened in between. -/
theorem Opened.reopen {known known' : Home → Bool} {l : Location} (h : Opened d₀ dir d)
    (hname : isWorkspaceName name = true) (hplain : isPlainDir dir = true)
    (hopen : (openWorkspace d₀ known dir name).1 = .ok l)
    (hextends : (openWorkspace d₀ known dir name).2.Extends d) (hknown : known' l.home = true) :
    openWorkspace d known' dir name = (.ok l, d) := by
  rcases h.makeDirs with ⟨m, _, _, h₀, -⟩ | ⟨m, e, h₀, hd, he, -, hm, -⟩
  · rw [openWorkspace_eq_error h₀] at hopen
    exact nomatch hopen
  rw [openWorkspace_eq hname hplain h₀ (.refl m) hm] at hopen hextends
  cases hfile : fileFault? m (databasePlace dir name) (plainLocation dir name) with
  | some fault =>
    rw [hfile] at hopen
    exact nomatch hopen
  | none =>
    rw [hfile] at hopen hextends
    dsimp only at hopen hextends
    cases htables : tablesFault? m (databasePlace dir name) (plainLocation dir name)
        (known (.file (databasePlace dir name))) with
    | some fault =>
      rw [htables] at hopen
      exact nomatch hopen
    | none =>
      rw [htables] at hopen hextends
      obtain rfl : plainLocation dir name = l := Except.ok.inj hopen
      have hplace := hasDir_of_fileFault?_none hfile
      -- the directory and the file are there still
      have hdir : d.isDir dir = true :=
        hextends.isDir ((extends_touch (.refl m) hplace).isDir hm)
      have hthere : (d.file? (databasePlace dir name)).isSome = true := by
        rw [hextends.files _ ((m.file? (databasePlace dir name)).getD [])]
        · rfl
        · rw [file?_touch, if_pos rfl]
      have he' : e = d := (Prod.mk.inj (hd.symm.trans (Disk.makeDirs_isDir hdir))).2
      have hknown' : known' (.file (databasePlace dir name)) = true := hknown
      rw [openWorkspace_eq hname hplain hd he hm, hfile]
      simp only [hknown', tablesFault?_known htables rfl]
      rw [he', touch_of_isSome hthere]

end

end Courier
