import Wiretap.Config
import Wiretap.Proofs.Directories

/-! Settings with values replaced. A configuration with the values of the command line in the place of its
own has the settings that the values now in force give: both addresses have to hold and the directory has
to be there, and the first value that does not hold is what is told, by its name. A value that is replaced
is not looked at, and replacing values twice is replacing them once, the later value where there are two. -/

namespace Wiretap

/-- The values of the first, and those of the second where the first has none. -/
def Overrides.orElse (o o' : Overrides) : Overrides where
  listenAddress := o.listenAddress.or o'.listenAddress
  serviceAddress := o.serviceAddress.or o'.serviceAddress
  outputDirectory := o.outputDirectory.or o'.outputDirectory

namespace Config

/-- What is told of the first value that does not hold, in the order in which they are looked at. -/
inductive FirstFault (isDirectory : String → Bool) (listen service directory : String) :
    ConfigError → Prop
  | listen (hlisten : SocketAddress.ofText? listen = none) :
      FirstFault isDirectory listen service directory
        (.badAddress ("listen_address '" ++ listen ++ "': " ++ SocketAddress.malformed))
  | service (hlisten : (SocketAddress.ofText? listen).isSome = true)
      (hservice : SocketAddress.ofText? service = none) :
      FirstFault isDirectory listen service directory
        (.badAddress ("upstream_address '" ++ service ++ "': " ++ SocketAddress.malformed))
  | directory (hlisten : (SocketAddress.ofText? listen).isSome = true)
      (hservice : (SocketAddress.ofText? service).isSome = true)
      (hdirectory : isDirectory directory = false) :
      FirstFault isDirectory listen service directory
        (.noDirectory ("output_directory " ++ directory ++
          " does not exist or is not a directory"))

/-- The settings that values give. -/
structure Gives (c : Config) (listen service directory : String) (s : ListenerSettings) : Prop where
  listen : SocketAddress.ofText? listen = some s.listenAddress
  service : SocketAddress.ofText? service = some s.serviceAddress
  output : s.output =
    if c.sharedOutput then .shared (joinPath directory sharedCaptureFile) else .perConnection directory
  captureZeroByte : s.captureZeroByte = c.captureZeroByte

/-- The configurations differ at most in values that are replaced. -/
structure AgreesBut (o : Overrides) (c c' : Config) : Prop where
  listen : o.listenAddress = none → c'.listenAddress = c.listenAddress
  service : o.serviceAddress = none → c'.serviceAddress = c.serviceAddress
  directory : o.outputDirectory = none → c'.outputDirectory = c.outputDirectory
  sharedOutput : c'.sharedOutput = c.sharedOutput
  captureZeroByte : c'.captureZeroByte = c.captureZeroByte

section

variable (isDirectory : String → Bool) (c : Config)

theorem resolve_cases :
    (∃ s, c.resolve isDirectory = .ok s ∧ isDirectory c.outputDirectory = true ∧
      c.Gives c.listenAddress c.serviceAddress c.outputDirectory s) ∨
    ∃ e, c.resolve isDirectory = .error e ∧
      FirstFault isDirectory c.listenAddress c.serviceAddress c.outputDirectory e := by
  unfold resolve address
  cases hlisten : SocketAddress.ofText? c.listenAddress with
  | none => exact .inr ⟨_, rfl, .listen hlisten⟩
  | some listen =>
      cases hservice : SocketAddress.ofText? c.serviceAddress with
      | none => exact .inr ⟨_, rfl, .service (by rw [hlisten]; rfl) hservice⟩
      | some service =>
          cases hdirectory : isDirectory c.outputDirectory with
          | false =>
              exact .inr ⟨_, rfl,
                .directory (by rw [hlisten]; rfl) (by rw [hservice]; rfl) hdirectory⟩
          | true => exact .inl ⟨_, rfl, rfl, hlisten, hservice, rfl, rfl⟩

end

variable {isDirectory : String → Bool} {listen service directory : String}

/-- There is at most one first fault, and none where all values hold. -/
theorem FirstFault.unique {e e' : ConfigError} (h : FirstFault isDirectory listen service directory e)
    (h' : FirstFault isDirectory listen service directory e') : e = e' := by
  cases h <;> cases h' <;> simp_all

theorem FirstFault.not_all {e : ConfigError} (h : FirstFault isDirectory listen service directory e) :
    ¬((SocketAddress.ofText? listen).isSome = true ∧ (SocketAddress.ofText? service).isSome = true ∧
      isDirectory directory = true) := by
  rintro ⟨hlisten, hservice, hdirectory⟩
  cases h <;> simp_all

theorem resolve_isOk_iff (isDirectory : String → Bool) (c : Config) :
    (∃ s, c.resolve isDirectory = .ok s) ↔ (SocketAddress.ofText? c.listenAddress).isSome = true ∧
      (SocketAddress.ofText? c.serviceAddress).isSome = true ∧
      isDirectory c.outputDirectory = true := by
  rcases c.resolve_cases isDirectory with ⟨s, hs, hdirectory, hgives⟩ | ⟨e, he, hfault⟩
  · exact iff_of_true ⟨s, hs⟩ ⟨by rw [hgives.listen]; rfl, by rw [hgives.service]; rfl, hdirectory⟩
  · refine iff_of_false ?_ hfault.not_all
    rintro ⟨s, hs⟩
    rw [he] at hs
    cases hs

theorem resolve_error_iff (isDirectory : String → Bool) (c : Config) (e : ConfigError) :
    c.resolve isDirectory = .error e ↔
      FirstFault isDirectory c.listenAddress c.serviceAddress c.outputDirectory e := by
  rcases c.resolve_cases isDirectory with ⟨s, hs, hdirectory, hgives⟩ | ⟨e', he', hfault⟩
  · refine iff_of_false ?_ fun h => h.not_all ⟨by rw [hgives.listen]; rfl,
      by rw [hgives.service]; rfl, hdirectory⟩
    rw [hs]
    exact nofun
  · rw [he', Except.error.injEq]
    exact ⟨fun h => h ▸ hfault, fun h => hfault.unique h⟩

theorem resolve_gives {isDirectory : String → Bool} {c : Config} {s : ListenerSettings}
    (h : c.resolve isDirectory = .ok s) :
    c.Gives c.listenAddress c.serviceAddress c.outputDirectory s := by
  rcases c.resolve_cases isDirectory with ⟨s', hs', -, hgives⟩ | ⟨e, he, -⟩
  · rw [hs'] at h
    cases h
    exact hgives
  · rw [he] at h
    cases h

/-! ### Replacing -/

/-- Checking the values before they are resolved changes nothing. -/
theorem resolveWith_eq (isDirectory : String → Bool) (c : Config) (o : Overrides) :
    c.resolveWith isDirectory o = (c.replace o).resolve isDirectory := by
  rw [resolveWith, override]
  dsimp only
  rw [validate]
  cases (c.replace o).resolve isDirectory <;> rfl

theorem replace_replace (c : Config) (o o' : Overrides) :
    (c.replace o).replace o' = c.replace (o'.orElse o) := by
  simp only [replace, Overrides.orElse, Option.getD_or]

theorem AgreesBut.replace {o : Overrides} {c c' : Config} (h : AgreesBut o c c') :
    c'.replace o = c.replace o := by
  obtain ⟨hlisten, hservice, hdirectory, hshared, hzero⟩ := h
  unfold Config.replace
  rw [hshared, hzero]
  congr 1
  · cases ho : o.listenAddress with
    | none => exact hlisten ho
    | some value => rfl
  · cases ho : o.serviceAddress with
    | none => exact hservice ho
    | some value => rfl
  · cases ho : o.outputDirectory with
    | none => exact hdirectory ho
    | some value => rfl

theorem plain_sharedCaptureFile : Plain sharedCaptureFile := ⟨by decide, by decide, by decide⟩

/-- A file for all connections is created in the directory for captures. -/
theorem Gives.create {c : Config} {s : ListenerSettings} (h : c.Gives listen service directory s)
    {fs files : FileSystem} {file : String} {place : Place} (hfile : s.output = .shared file)
    (hdirectory : fs.isDirectory directory = true) (hcreate : fs.create file = .ok (place, files)) :
    ∃ here, fs.goTo directory = .ok here ∧ place = here ++ [sharedCaptureFile] := by
  have houtput := h.output
  rw [hfile] at houtput
  split at houtput
  · injection houtput with hjoined
    rw [hjoined] at hcreate
    exact FileSystem.create_joinPath plain_sharedCaptureFile (by decide) hdirectory hcreate
  · cases houtput

/-- **The values in force decide.** A configuration with some values replaced has settings exactly if both
addresses that are then in force hold and the directory that is in force is there. Otherwise the first of
these that does not is told by its name. The settings are those that the values in force give, and a file
for all connections is one in the directory. What a replaced value was changes nothing, neither the settings
nor what is told nor the configuration that is left. Values that are replaced twice are replaced once, by the
later ones completed by the earlier. -/
theorem values_in_force (isDirectory : String → Bool) (c : Config) (o : Overrides) :
    let listen := o.listenAddress.getD c.listenAddress
    let service := o.serviceAddress.getD c.serviceAddress
    let directory := o.outputDirectory.getD c.outputDirectory
    let outcome := c.resolveWith isDirectory o
    ((∃ s, outcome = .ok s) ↔ (SocketAddress.ofText? listen).isSome = true ∧
        (SocketAddress.ofText? service).isSome = true ∧ isDirectory directory = true) ∧
      (∀ e, outcome = .error e ↔ FirstFault isDirectory listen service directory e) ∧
      (∀ s, outcome = .ok s → c.Gives listen service directory s ∧
        ∀ (fs files : FileSystem) file place, s.output = .shared file →
          fs.isDirectory directory = true → fs.create file = .ok (place, files) →
          ∃ here, fs.goTo directory = .ok here ∧ place = here ++ [sharedCaptureFile]) ∧
      (∀ c', AgreesBut o c c' →
        c'.resolveWith isDirectory o = outcome ∧
          c'.override isDirectory o = c.override isDirectory o) ∧
      ∀ later,
        let replaced := (c.override isDirectory o).2
        replaced.override isDirectory later = c.override isDirectory (later.orElse o) ∧
          replaced.resolveWith isDirectory later =
            c.resolveWith isDirectory (later.orElse o) := by
  intro listen service directory outcome
  have houtcome : outcome = (c.replace o).resolve isDirectory := c.resolveWith_eq isDirectory o
  refine ⟨?_, ?_, ?_, ?_, ?_⟩
  · rw [houtcome]
    exact resolve_isOk_iff isDirectory (c.replace o)
  · intro e
    rw [houtcome]
    exact resolve_error_iff isDirectory (c.replace o) e
  · intro s hs
    rw [houtcome] at hs
    have hgives : (c.replace o).Gives listen service directory s := resolve_gives hs
    refine ⟨⟨hgives.listen, hgives.service, hgives.output, hgives.captureZeroByte⟩, ?_⟩
    intro fs files file place hfile hdirectory hcreate
    exact hgives.create hfile hdirectory hcreate
  · intro c' hc'
    rw [houtcome, resolveWith_eq, override, override, hc'.replace]
    exact ⟨rfl, rfl⟩
  · intro later replaced
    rw [resolveWith_eq, resolveWith_eq, override, override, ← replace_replace]
    exact ⟨rfl, rfl⟩

/-- No value of a file holds. -/
def unusable : Config :=
  { listenAddress := "anywhere", serviceAddress := "nowhere", outputDirectory := "lost"
    sharedOutput := true }

/-- A host with one directory. -/
def oneDirectory : FileSystem := ⟨[], [["caps"]], []⟩

theorem values_in_force_unusable :
    let o : Overrides := { listenAddress := some "0.0.0.0:80", outputDirectory := some "caps/" }
    let later : Overrides := { serviceAddress := some "[::1]:443" }
    let both := later.orElse o
    let created := FileSystem.put oneDirectory ["caps", "capture.pcap"] .empty
    AgreesBut both unusable { unusable with outputDirectory := "found" } ∧
      unusable.resolveWith oneDirectory.isDirectory o = .error
        (.badAddress "upstream_address 'nowhere': invalid socket address syntax") ∧
      ∃ s, unusable.resolveWith oneDirectory.isDirectory both = .ok s ∧
        s.output = .shared "caps/capture.pcap" ∧
        oneDirectory.isDirectory "caps/" = true ∧
        oneDirectory.create "caps/capture.pcap" = .ok (["caps", "capture.pcap"], created) ∧
        (∃ here, oneDirectory.goTo "caps/" = .ok here ∧
          ["caps", "capture.pcap"] = here ++ [sharedCaptureFile]) ∧
        unusable.Gives "0.0.0.0:80" "[::1]:443" "caps/" s ∧
        { unusable with outputDirectory := "found" }.resolveWith oneDirectory.isDirectory both =
          .ok s ∧
        (unusable.override oneDirectory.isDirectory o).2.resolveWith oneDirectory.isDirectory later =
          .ok s := by
  intro o later both created
  have hbut : AgreesBut both unusable { unusable with outputDirectory := "found" } :=
    ⟨nofun, nofun, nofun, rfl, rfl⟩
  have hcaps : oneDirectory.isDirectory "caps/" = true :=
    (FileSystem.isDirectory_iff _ _).mpr ⟨⟨by decide, by decide, by decide⟩, ["caps"], rfl⟩
  have hcreate : oneDirectory.create "caps/capture.pcap" =
      .ok (["caps", "capture.pcap"], created) := by
    rw [FileSystem.create, FileSystem.follow_sendable _ ⟨by decide, by decide, by decide⟩]
    rfl
  obtain ⟨-, hfault, -, -, htwice⟩ := values_in_force oneDirectory.isDirectory unusable o
  obtain ⟨hvalid, -, hgiven, hsame, -⟩ := values_in_force oneDirectory.isDirectory unusable both
  obtain ⟨s, hs⟩ := hvalid.mpr ⟨by decide, by decide, hcaps⟩
  obtain ⟨hgives, hinside⟩ := hgiven s hs
  have houtput : s.output = .shared "caps/capture.pcap" := hgives.output.trans (by decide)
  exact ⟨hbut, (hfault _).mpr (.service (by decide) (by decide)), s, hs, houtput, hcaps, hcreate,
    hinside _ _ _ _ houtput hcaps hcreate, hgives, (hsame _ hbut).1.trans hs,
    (htwice later).2.trans hs⟩

end Config

end Wiretap
