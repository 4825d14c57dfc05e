import RoutingFabric.Command.Annotate
import RoutingFabric.Proofs.Phase

/-!
# Annotating succeeds

The command succeeds exactly if the options and the fabric can be read, the fabric can be annotated,
its bitstream can be assembled, and the files can be written.
-/

namespace RoutingFabric.Command.Annotate

open Files

/-- The command has read a fabric and options, annotated the fabric, assembled its bitstream, and
written the files. -/
structure Done (a : Annotate) (folder : Folder) (o : Options) (f₀ f : Fabric) (s : Bitstream)
    (folder' : Folder) : Prop where
  options : ∃ o', (a.loadOptions Folder.disk).run folder = (.ok o', folder)
    ∧ o = { o' with threads := a.threads.getD o'.threads }
  fabric : (Snapshot.load Folder.disk a.form a.fabric).run folder = (.ok f₀, folder)
  annotated : ∃ report, (annotating o).Gives f₀ report f
  assembled : (assembling o).Gives f s f
  written : ∃ files, a.files f s = .ok files
    ∧ (Folder.disk.writeAll files).run folder = (.ok (), folder')

variable {a : Annotate} {folder folder' : Folder} {o : Options} {f₀ f f' : Fabric} {s : Bitstream}
variable {log : Option String} {response : Response}

/-! ### Parts of the work -/

/-- Assembling leaves the fabric as it is. -/
theorem gives_assembling_iff :
  (assembling o).Gives f s f' ↔ f = f' ∧ ∃ d assembly,
    DeviceBoxes.build f.graph f.grid o.threads = .ok d
      ∧ Bitstream.assemble f o d = .ok assembly ∧ s = assembly.bitstream
  := by
  simp only [assembling, Phase.gives_bind_iff, Phase.gives_state_iff, Phase.gives_lift_iff,
    Phase.gives_report_iff, Phase.gives_pure_iff]
  constructor
  · rintro ⟨_, _, ⟨rfl, rfl⟩, d, _, ⟨hd, rfl⟩, _, _, rfl, assembly, _, ⟨hassembly, rfl⟩, _, _, rfl,
      rfl, rfl⟩
    exact ⟨rfl, d, assembly, hd, hassembly, rfl⟩
  · rintro ⟨rfl, d, assembly, hd, hassembly, rfl⟩
    exact ⟨f, f, ⟨rfl, rfl⟩, d, f, ⟨hd, rfl⟩, (), f, rfl, assembly, f, ⟨hassembly, rfl⟩, (), f, rfl,
      rfl, rfl⟩

/-- A command succeeds exactly when nothing stops it. -/
theorem code_ofStop_eq_succeeded_iff {out : String} {events : List Event} {stop : Option Stop} :
  (Response.ofStop log out events stop).code = Response.succeeded ↔ stop = none
  := by
  rcases stop with _ | p | f <;> simp [Response.ofStop, Response.succeeded, Response.failed,
    Response.faulted]

/-- Reading the options leaves the folder as it is. -/
theorem exists_run_loadOptions (a : Annotate) (folder : Folder) :
  ∃ result, (a.loadOptions Folder.disk).run folder = (result, folder)
  := by
  rw [loadOptions]
  split
  · exact ⟨_, rfl⟩
  · exact ⟨_, rfl⟩

/-- What the command does once the options and the fabric are read. -/
theorem run_of_loaded (hoptions : (a.loadOptions Folder.disk).run folder = (.ok o, folder))
    (hfabric : (Snapshot.load Folder.disk a.form a.fabric).run folder = (.ok f, folder))
    (log : Option String) :
  ∃ w, a.work { o with threads := a.threads.getD o.threads } f = w
    ∧ (a.run Folder.disk log).run folder
      = (.ofStop log w.out w.events ((written Folder.disk w.files).run folder).1,
        ((written Folder.disk w.files).run folder).2)
  := by
  refine ⟨_, rfl, ?_⟩
  rw [run, StateT.run_bind, hoptions]
  change (Snapshot.load Folder.disk a.form a.fabric >>= _).run folder = _
  rw [StateT.run_bind, hfabric]
  rfl

/-- Nothing stops the writing of files exactly if there are files and they can be written. -/
theorem run_written_eq_iff {files : Outcome (List (String × String))} :
  (written Folder.disk files).run folder = (none, folder') ↔ ∃ fs, files = .ok fs
    ∧ (Folder.disk.writeAll fs).run folder = (.ok (), folder')
  := by
  cases files with
  | error e =>
    constructor
    · intro h
      cases h
    · rintro ⟨fs, hfs, -⟩
      cases hfs
  | ok fs =>
    simp only [Except.ok.injEq, exists_eq_left']
    rw [written, StateT.run_bind]
    cases hwrite : (Folder.disk.writeAll fs).run folder with
    | mk result stop =>
      cases result with
      | error p => constructor <;> intro h <;> cases h
      | ok => constructor <;> intro h <;> cases h <;> rfl

/-- The work of the command has files exactly if the fabric can be annotated and its bitstream
assembled. -/
theorem files_work_eq_ok_iff {fs : List (String × String)} :
  (a.work o f₀).files = .ok fs ↔ ∃ report f s f', (annotating o).Gives f₀ report f
    ∧ (assembling o).Gives f s f' ∧ a.files f' s = .ok fs
  := by
  constructor
  · intro h
    unfold work at h
    dsimp only at h
    split at h
    · cases h
    rename_i report hreport
    split at h
    · cases h
    rename_i s hs
    exact ⟨report, _, s, _, ⟨hreport, rfl⟩, ⟨hs, rfl⟩, h⟩
  · rintro ⟨report, f, s, f', ⟨hreport, rfl⟩, ⟨hs, rfl⟩, h⟩
    simp only [work, hreport, hs]
    apply h

/-! ### The command -/

/-- A command that succeeds has done its work. -/
theorem exists_done_of_run (h : (a.run Folder.disk log).run folder = (response, folder'))
    (hok : response.code = Response.succeeded) :
  ∃ o f₀ f s, Done a folder o f₀ f s folder'
  := by
  obtain ⟨options, hoptions⟩ := exists_run_loadOptions a folder
  obtain ⟨fabric, hfabric⟩ :
      ∃ fabric, (Snapshot.load Folder.disk a.form a.fabric).run folder = (fabric, folder) :=
    ⟨_, rfl⟩
  have hresponse := h
  rw [run, StateT.run_bind, hoptions] at hresponse
  change (Snapshot.load Folder.disk a.form a.fabric >>= _).run folder = _ at hresponse
  rw [StateT.run_bind, hfabric] at hresponse
  cases options with
  | error p =>
    cases hresponse
    cases hok
  | ok o =>
    cases fabric with
    | error p =>
      cases hresponse
      cases hok
    | ok f₀ =>
      obtain ⟨w, rfl, hrun⟩ := run_of_loaded hoptions hfabric log
      rw [hrun] at h
      cases h
      rw [code_ofStop_eq_succeeded_iff] at hok
      obtain ⟨fs, hfs, hwrite⟩ := run_written_eq_iff.mp (Prod.ext hok rfl)
      obtain ⟨report, f, s, f', hannotated, hassembled, hfiles⟩ := files_work_eq_ok_iff.mp hfs
      obtain ⟨rfl, -⟩ := gives_assembling_iff.mp hassembled
      exact ⟨_, f₀, f, s, ⟨o, hoptions, rfl⟩, hfabric, ⟨report, hannotated⟩, hassembled, fs, hfiles,
        hwrite⟩

/-- A command succeeds if it can do its work. -/
theorem Done.exists_run (h : Done a folder o f₀ f s folder') (log : Option String) :
  ∃ response, (a.run Folder.disk log).run folder = (response, folder')
    ∧ response.code = Response.succeeded
  := by
  obtain ⟨⟨o', hoptions, rfl⟩, hfabric, ⟨report, hannotated⟩, hassembled, fs, hfiles, hwrite⟩ := h
  obtain ⟨w, rfl, hrun⟩ := run_of_loaded hoptions hfabric log
  have hfs := files_work_eq_ok_iff.mpr ⟨report, f, s, f, hannotated, hassembled, hfiles⟩
  have hwritten := run_written_eq_iff.mpr ⟨fs, hfs, hwrite⟩
  rw [hwritten] at hrun
  exact ⟨_, hrun, code_ofStop_eq_succeeded_iff.mpr rfl⟩

end RoutingFabric.Command.Annotate
