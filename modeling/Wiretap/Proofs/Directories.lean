import Wiretap.FileSystem
import Mathlib.Data.List.TakeWhile

/-! Where paths lead. A path is a number of names with slashes between them. It names a directory exactly
if walking its names leads somewhere, whether a slash ends it or not, and a name that is joined to such a
path is the name of a file in that directory. A file that was created at a path and written is what is
read there afterwards. -/

namespace Wiretap

/-! ### Names -/

theorem splitAt_append (separator : Char) (xs ys : List Char) :
    splitAt separator (xs ++ separator :: ys) = splitAt separator xs ++ splitAt separator ys := by
  induction xs with
  | nil =>
      rw [List.nil_append, splitAt, splitAt]
      cases hys : splitAt separator ys with
      | nil => exact absurd hys (splitAt_ne_nil separator ys)
      | cons part parts => exact if_pos rfl
  | cons x xs ih =>
      rw [List.cons_append, splitAt, ih, splitAt]
      cases hxs : splitAt separator xs with
      | nil => exact absurd hxs (splitAt_ne_nil separator xs)
      | cons part parts =>
          dsimp only [List.cons_append]
          split <;> rfl

theorem splitAt_of_not_mem {separator : Char} {cs : List Char} (h : separator ∉ cs) :
    splitAt separator cs = [cs] := by
  induction cs with
  | nil => rfl
  | cons c cs ih =>
      rw [List.mem_cons, not_or] at h
      rw [splitAt, ih h.2]
      dsimp only
      rw [if_neg (Ne.symm h.1)]

/-- The names of a path, empty ones between slashes that follow each other. -/
def pathNames (path : String) : List String := (splitAt '/' path.toList).map String.ofList

theorem pathNames_of_not_mem {name : String} (h : '/' ∉ name.toList) : pathNames name = [name] := by
  rw [pathNames, splitAt_of_not_mem h, List.map_singleton, String.ofList_toList]

theorem pathNames_append (front : List Char) {name : String} (h : '/' ∉ name.toList) :
    (splitAt '/' (front ++ '/' :: name.toList)).map String.ofList =
      (splitAt '/' front).map String.ofList ++ [name] := by
  rw [splitAt_append, List.map_append, ← pathNames_of_not_mem h]
  rfl

/-- A joined name comes after the names of the path, in the place of a last one that is empty. -/
theorem pathNames_joinPath (directory : String) {name : String} (h : '/' ∉ name.toList) :
    ∃ front, pathNames (joinPath directory name) = front ++ [name] ∧
      (pathNames directory = front ∨ pathNames directory = front ++ [""]) := by
  unfold joinPath
  split
  · rename_i hends
    rcases hends with rfl | hslash
    · exact ⟨[], by simpa using pathNames_of_not_mem h, .inr rfl⟩
    · obtain ⟨front, hfront⟩ := List.getLast?_eq_some_iff.mp hslash
      refine ⟨(splitAt '/' front).map String.ofList, ?_, .inr ?_⟩
      · rw [pathNames, String.toList_append, hfront, List.append_assoc]
        exact pathNames_append front h
      · rw [pathNames, hfront, splitAt_append, List.map_append]
        rfl
  · refine ⟨pathNames directory, ?_, .inl rfl⟩
    rw [pathNames, String.toList_append, String.toList_append, List.append_assoc]
    exact pathNames_append directory.toList h

/-- A name that stands for itself. -/
def Plain (name : String) : Prop := name ≠ "" ∧ name ≠ "." ∧ name ≠ ".."

/-- A route has the names of its path, up to empty ones at the end. -/
theorem Route.ofPath_names (path : String) :
    ∃ blanks, (∀ b ∈ blanks, b = "") ∧
      pathNames path = (ofPath path).directories ++ (ofPath path).name.toList ++ blanks ∧
      ∀ name, (ofPath path).name = some name → Plain name := by
  unfold ofPath pathNames
  generalize (splitAt '/' path.toList).map String.ofList = names
  have hnames : names = (names.reverse.dropWhile (· = "")).reverse ++
      (names.reverse.takeWhile (· = "")).reverse := by
    rw [← List.reverse_append, List.takeWhile_append_dropWhile, List.reverse_reverse]
  refine ⟨(names.reverse.takeWhile (· = "")).reverse, ?_, ?_⟩
  · intro b hb
    simpa using List.mem_takeWhile_imp (List.mem_reverse.mp hb)
  · dsimp only
    cases hrest : names.reverse.dropWhile (· = "") with
    | nil =>
        rw [hrest] at hnames
        exact ⟨hnames, by simp⟩
    | cons last before =>
        rw [hrest] at hnames
        have hlast : last ≠ "" := by
          have hhead := List.head?_dropWhile_not (fun s : String => decide (s = "")) names.reverse
          rw [hrest] at hhead
          simpa using hhead
        dsimp only
        split
        · exact ⟨by simpa using hnames, by simp⟩
        · rename_i hdots
          rw [not_or] at hdots
          refine ⟨by simpa using hnames, ?_⟩
          rintro name ⟨⟩
          exact ⟨hlast, hdots⟩

/-- The route of a plain name after others. -/
theorem Route.ofPath_of_names {path name : String} {front : List String} (hname : Plain name)
    (h : pathNames path = front ++ [name]) : ofPath path = ⟨front, some name, false⟩ := by
  unfold ofPath
  unfold pathNames at h
  rw [h, List.reverse_append, List.reverse_singleton, List.singleton_append]
  dsimp only
  rw [List.dropWhile_cons_of_neg (by simpa using hname.1)]
  dsimp only
  rw [if_neg (not_or.mpr hname.2), List.reverse_reverse]
  simp [hname.1]

namespace FileSystem

/-! ### Walks -/

theorem walk_blank (fs : FileSystem) (here : Place) (names : List String) :
    fs.walk here ("" :: names) = fs.walk here names := by
  rw [walk, if_pos (.inl rfl)]

theorem walk_blanks (fs : FileSystem) (here : Place) {names : List String}
    (h : ∀ n ∈ names, n = "") : fs.walk here names = .ok here := by
  induction names with
  | nil => rfl
  | cons n names ih =>
      obtain ⟨rfl, hrest⟩ := List.forall_mem_cons.mp h
      rw [walk_blank, ih hrest]

theorem walk_append (fs : FileSystem) (here : Place) (front back : List String) :
    fs.walk here (front ++ back) = (fs.walk here front).bind fun there => fs.walk there back := by
  induction front generalizing here with
  | nil => rfl
  | cons n front ih =>
      rw [List.cons_append, walk, walk]
      split
      · exact ih here
      · split
        · exact ih here.dropLast
        · cases placeIn here n with
          | error e => rfl
          | ok next =>
              dsimp only
              cases fs.entry? next with
              | none => rfl
              | some entry =>
                  cases entry with
                  | directory => exact ih next
                  | file contents => rfl

/-- A plain name is walked to in the directory that it stands in. -/
theorem walk_plain (fs : FileSystem) (here : Place) {name : String} (h : Plain name) :
    fs.walk here [name] =
      match placeIn here name with
      | .error e => .error e
      | .ok next =>
        match fs.entry? next with
        | some .directory => .ok next
        | some (.file _) => .error .notDirectory
        | none => .error .noEntry := by
  rw [walk, if_neg (not_or.mpr ⟨h.1, h.2.1⟩), if_neg h.2.2]
  rfl

theorem entry?_eq_directory_iff (fs : FileSystem) (p : Place) :
    fs.entry? p = some .directory ↔ fs.hasDirectory p = true := by
  unfold entry?
  split
  · exact iff_of_true rfl ‹_›
  · exact iff_of_false (by cases fs.file? p <;> exact nofun) ‹_›

/-- Files are not walked through, so that no walk that leads somewhere changes with them. -/
theorem walk_put {fs : FileSystem} {here there : Place} {names : List String} (p : Place)
    (contents : ByteArray) (h : fs.walk here names = .ok there) :
    (fs.put p contents).walk here names = .ok there := by
  induction names generalizing here with
  | nil => exact h
  | cons n names ih =>
      rw [walk] at h ⊢
      split at h
      · rw [if_pos ‹_›]
        exact ih h
      rw [if_neg ‹_›]
      split at h
      · rw [if_pos ‹_›]
        exact ih h
      rw [if_neg ‹_›]
      split at h
      · cases h
      · rename_i next hnext
        split at h
        · rename_i hdirectory
          have hkept := (entry?_eq_directory_iff (fs.put p contents) next).mpr
            ((fs.entry?_eq_directory_iff next).mp hdirectory)
          rw [hkept]
          exact ih h
        · cases h
        · cases h

/-! ### Directories -/

/-- A path that can be handed to the system. -/
def Sendable (path : String) : Prop :=
  '\x00' ∉ path.toList ∧ path ≠ "" ∧ path.utf8ByteSize < 4096

/-- The directory that a path starts from. -/
def start (fs : FileSystem) (path : String) : Place :=
  if path.toList.head? = some '/' then [] else fs.workingDirectory

/-- Where the names of a path lead, each that of a directory. -/
def goTo (fs : FileSystem) (path : String) : Except SystemError Place :=
  fs.walk (fs.start path) (pathNames path)

theorem follow_sendable (fs : FileSystem) {path : String} (h : Sendable path) :
    fs.follow path =
      ((fs.walk (fs.start path) (Route.ofPath path).directories).map
        (·, Route.ofPath path)).mapError .system := by
  have hstarts : path.startsWith "/" = true ↔ path.toList.head? = some '/' := by
    rw [String.startsWith_string_iff]
    cases path.toList <;> simp [eq_comm]
  unfold follow
  rw [if_neg (by simp [h.1]), if_neg h.2.1, if_neg (Nat.not_le.mpr h.2.2)]
  simp only [hstarts]
  rfl

/-- What cannot be handed to the system is not followed. -/
theorem sendable_of_follow {fs : FileSystem} {path : String} {r : Place × Route}
    (h : fs.follow path = .ok r) : Sendable path := by
  unfold follow at h
  split at h
  · cases h
  split at h
  · cases h
  split at h
  · cases h
  rename_i hnul hempty hlong
  exact ⟨by simpa using hnul, hempty, Nat.not_le.mp hlong⟩

/-- The names of a path lead to its last directory and from there on to its last name. -/
theorem goTo_eq (fs : FileSystem) (path : String) :
    fs.goTo path = (fs.walk (fs.start path) (Route.ofPath path).directories).bind fun here =>
      fs.walk here (Route.ofPath path).name.toList := by
  obtain ⟨blanks, hblanks, hnames, -⟩ := Route.ofPath_names path
  rw [goTo, hnames, walk_append, walk_append]
  cases fs.walk (fs.start path) (Route.ofPath path).directories with
  | error e => rfl
  | ok here =>
      change (fs.walk here _).bind _ = fs.walk here _
      cases fs.walk here (Route.ofPath path).name.toList with
      | error e => rfl
      | ok there => exact fs.walk_blanks there hblanks

theorem entryAt_directory_iff (fs : FileSystem) (here : Place) {route : Route}
    (hplain : ∀ name, route.name = some name → Plain name) :
    fs.entryAt here route = .ok .directory ↔ ∃ there, fs.walk here route.name.toList = .ok there := by
  unfold entryAt
  cases hname : route.name with
  | none => exact iff_of_true rfl ⟨here, rfl⟩
  | some name =>
      rw [Option.toList_some, fs.walk_plain here (hplain name hname)]
      simp only [bind, Except.bind]
      cases placeIn here name with
      | error e => simp
      | ok next =>
          dsimp only
          rcases hentry : fs.entry? next with _ | (_ | contents)
          · simp
          · simp
          · cases route.endsInSlash <;> simp

/-- **A path names a directory exactly if its names lead somewhere.** -/
theorem isDirectory_iff (fs : FileSystem) (path : String) :
    fs.isDirectory path = true ↔ Sendable path ∧ ∃ here, fs.goTo path = .ok here := by
  obtain ⟨-, -, -, hplain⟩ := Route.ofPath_names path
  have hlook : fs.isDirectory path = true ↔ fs.lookUp path = .ok .directory := by
    unfold isDirectory
    split <;> simp_all
  rw [hlook]
  by_cases hsend : Sendable path
  · rw [lookUp, fs.follow_sendable hsend, goTo_eq, and_iff_right hsend]
    cases fs.walk (fs.start path) (Route.ofPath path).directories with
    | error e => exact iff_of_false nofun fun ⟨_, h⟩ => nomatch h
    | ok here =>
        change (fs.entryAt here _).mapError IoError.system = .ok .directory ↔
          ∃ there, fs.walk here _ = .ok there
        rw [← fs.entryAt_directory_iff here hplain]
        cases fs.entryAt here (Route.ofPath path) <;> simp [Except.mapError]
  · refine iff_of_false ?_ fun h => hsend h.1
    intro h
    rw [lookUp] at h
    cases hfollow : fs.follow path with
    | error e =>
        rw [hfollow] at h
        cases h
    | ok r => exact hsend (sendable_of_follow hfollow)

/-- A path with a name joined to it starts from where the path does. -/
theorem start_joinPath (fs : FileSystem) {directory : String} (name : String) (h : directory ≠ "") :
    fs.start (joinPath directory name) = fs.start directory := by
  have hhead : (joinPath directory name).toList.head? = directory.toList.head? := by
    obtain ⟨c, cs, hcs⟩ := List.exists_cons_of_ne_nil (mt String.toList_eq_nil_iff.mp h)
    unfold joinPath
    split <;> simp [hcs]
  rw [start, start, hhead]

/-! ### Files -/

theorem create_eq_ok {fs files : FileSystem} {path : String} {p : Place}
    (h : fs.create path = .ok (p, files)) :
    ∃ here route, fs.follow path = .ok (here, route) ∧ fs.placeForFile here route = .ok p ∧
      files = fs.put p .empty := by
  rw [create] at h
  cases hfollow : fs.follow path with
  | error e =>
      rw [hfollow] at h
      cases h
  | ok r =>
      rw [hfollow] at h
      change (Except.mapError IoError.system (fs.placeForFile r.1 r.2)).bind _ = _ at h
      cases hplace : fs.placeForFile r.1 r.2 with
      | error e =>
          rw [hplace] at h
          cases h
      | ok q =>
          rw [hplace] at h
          cases h
          exact ⟨r.1, r.2, rfl, hplace, rfl⟩

/-- A file stands at the end of its route, where no directory is. -/
theorem placeForFile_eq_ok {fs : FileSystem} {here p : Place} {route : Route}
    (h : fs.placeForFile here route = .ok p) :
    ∃ name, route.name = some name ∧ route.endsInSlash = false ∧ placeIn here name = .ok p ∧
      fs.hasDirectory p = false := by
  unfold placeForFile at h
  split at h
  · rename_i name hname hslash
    refine ⟨name, hname, hslash, ?_⟩
    simp only [bind, Except.bind] at h
    split at h
    · cases h
    · rename_i q hq
      split at h
      · cases h
      · cases h
        exact ⟨hq, Bool.eq_false_iff.mpr ‹_›⟩
  · cases h

theorem placeIn_eq_ok {here p : Place} {name : String} (h : placeIn here name = .ok p) :
    p = here ++ [name] := by
  unfold placeIn at h
  split at h
  · cases h
  · cases h
    rfl

/-- **A file whose name is joined to the path of a directory is created in that directory.** -/
theorem create_joinPath {fs files : FileSystem} {directory name : String} {p : Place}
    (hname : Plain name) (hslash : '/' ∉ name.toList) (hdirectory : fs.isDirectory directory = true)
    (h : fs.create (joinPath directory name) = .ok (p, files)) :
    ∃ here, fs.goTo directory = .ok here ∧ p = here ++ [name] := by
  obtain ⟨hsend, here, hhere⟩ := (fs.isDirectory_iff directory).mp hdirectory
  obtain ⟨front, hjoined, hfront⟩ := pathNames_joinPath directory hslash
  have hwalk : fs.walk (fs.start directory) front = .ok here := by
    rw [goTo] at hhere
    rcases hfront with hfront | hfront
    · rwa [hfront] at hhere
    · rw [hfront, walk_append] at hhere
      cases hrest : fs.walk (fs.start directory) front with
      | error e =>
          rw [hrest] at hhere
          cases hhere
      | ok there =>
          rw [hrest] at hhere
          exact hhere
  obtain ⟨there, route, hfollow, hplace, -⟩ := create_eq_ok h
  rw [fs.follow_sendable (sendable_of_follow hfollow), Route.ofPath_of_names hname hjoined,
    start_joinPath fs name hsend.2.1, hwalk] at hfollow
  cases hfollow
  obtain ⟨_, ⟨⟩, -, hp, -⟩ := placeForFile_eq_ok hplace
  exact ⟨here, hhere, placeIn_eq_ok hp⟩

theorem follow_put {fs : FileSystem} {path : String} {r : Place × Route} (p : Place)
    (contents : ByteArray) (h : fs.follow path = .ok r) :
    (fs.put p contents).follow path = .ok r := by
  have hsend := sendable_of_follow h
  have hstart : (fs.put p contents).start path = fs.start path := rfl
  rw [fs.follow_sendable hsend] at h
  rw [follow_sendable _ hsend, hstart]
  cases hwalk : fs.walk (fs.start path) (Route.ofPath path).directories with
  | error e =>
      rw [hwalk] at h
      cases h
  | ok here =>
      rw [hwalk] at h
      rw [walk_put p contents hwalk]
      exact h

/-- **A file that was created and written is read as it was written.** -/
theorem read_put {fs files : FileSystem} {path : String} {p : Place}
    (h : fs.create path = .ok (p, files)) (contents : ByteArray) :
    (files.put p contents).read path = .ok contents := by
  obtain ⟨here, route, hfollow, hplace, rfl⟩ := create_eq_ok h
  obtain ⟨name, hname, hslash, hp, hdirectory⟩ := placeForFile_eq_ok hplace
  have hlast := follow_put p contents (follow_put p .empty hfollow)
  have hat : ((fs.put p .empty).put p contents).entryAt here route = .ok (.file contents) := by
    have hkept : ((fs.put p .empty).put p contents).hasDirectory p = false := hdirectory
    unfold entryAt entry?
    simp only [hname, hp, bind, Except.bind, hkept, file?_put, hslash]
    rfl
  rw [read, lookUp, hlast]
  change ((_ : Except SystemError Entry).mapError IoError.system).bind _ = _
  rw [hat]
  rfl

end FileSystem

end Wiretap
