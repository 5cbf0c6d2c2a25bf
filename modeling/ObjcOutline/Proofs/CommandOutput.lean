import ObjcOutline.Command.Run
import ObjcOutline.Proofs.StandardEngine

/-!
# What a summary writes

A summary is put together from parts that are found independently of each other: the configuration
with the warning about it, the document with what was logged while it was made, and how the run ends.
`Loads` and `Ends` say what these parts are, with all the texts that are written, for every way to
decode configuration files and every standard output. The libraries are assumed to do one thing: the
command line at hand reaches the action of the command, with options that are given.

Two comparisons of runs follow. Showing the log changes nothing else. And a configuration file that
cannot be loaded changes nothing but the warning: the run is that of the defaults, whatever part of
the file was decoded before it failed.

The standard error is meant up to the date and the time that a logger puts before each message.
-/
namespace ObjcOutline.Command

/-- How the file at a path is loaded: the warning about it, and the configuration. What a decoder
wrote before it failed is in neither. -/
inductive Loads {ε : Type} [Reported ε] (decoder : Config.Decoder ε) (disk : Disk) (path : Text) :
    (warning : Text) → Config → Prop
  | decoded {data : Bytes} {written : Config} : disk path = .ok data →
      decoder data .default = (written, none) → Loads decoder disk path [] written.refill
  | missing : disk path = .error .notFound → Loads decoder disk path [] .default
  | unreadable {fault : ReadFault} : disk path = .error fault → fault ≠ .notFound →
      Loads decoder disk path ("warning: " ++ ("reading config " ++ path ++ ": " ++
        fault.message path) ++ ", using defaults" ++ ['\n']) .default
  | undecodable {data : Bytes} {written : Config} {error : ε} : disk path = .ok data →
      decoder data .default = (written, some error) → Reported.isNotFound error = false →
      Loads decoder disk path ("warning: " ++ ("parsing config " ++ path ++ ": " ++
        Reported.message error) ++ ", using defaults" ++ ['\n']) .default
  | passedOver {data : Bytes} {written : Config} {error : ε} : disk path = .ok data →
      decoder data .default = (written, some error) → Reported.isNotFound error = true →
      Loads decoder disk path [] .default

/-- The document of a path that the engine of a configuration makes, as the options ask for it. -/
def engineDocument (disk : Disk) (config : Config) (o : Options) (path : Text) : Logged Text :=
  let engine := Engine.standard (if o.withProperties then config.withProperties true else config)
  if o.asMap then engine.symbolMap disk .live path else engine.outline disk .live path

/-- The ways in which a summary ends, where `made` makes the document of its first argument: what was
logged, the exit status, the standard output and the final message. -/
inductive Ends (output : Output) (made : Text → Logged Text) :
    (positional log : List Text) → (exit : Nat) → (stdout final : Text) → Prop
  | unnamed : Ends output made [] [] 1 []
      ("Usage: summarize <file-path> OR summarize --map <file-path>" ++ ['\n'])
  | missing {path : Text} {rest log : List Text} {f : Failure} : made path = ⟨log, .error f⟩ →
      f.isNotFound = true →
      Ends output made (path :: rest) log 1 [] ("Error: File not found: " ++ path ++ ['\n'])
  | failed {path : Text} {rest log : List Text} {f : Failure} : made path = ⟨log, .error f⟩ →
      f.isNotFound = false →
      Ends output made (path :: rest) log 1 [] ("Error: " ++ f.message ++ ['\n'])
  | unwritten {path content : Text} {rest log : List Text} {fault : WriteFault} :
      made path = ⟨log, .ok content⟩ → output content = some fault →
      Ends output made (path :: rest) log 1 (content.take fault.taken)
        ("Error: writing output: " ++ fault.message ++ ['\n'])
  | written {path content : Text} {rest log : List Text} : made path = ⟨log, .ok content⟩ →
      output content = none → Ends output made (path :: rest) log 0 content []

section Loading
variable {ε : Type} [Reported ε] {decoder : Config.Decoder ε} {disk : Disk}

theorem exists_loads (decoder : Config.Decoder ε) (disk : Disk) (path : Text) :
    ∃ warning config, Loads decoder disk path warning config := by
  cases hread : disk path with
  | error fault =>
    by_cases hfault : fault = .notFound
    · exact ⟨_, _, .missing (hfault ▸ hread)⟩
    · exact ⟨_, _, .unreadable hread hfault⟩
  | ok data =>
    rcases hdecode : decoder data .default with ⟨written, _ | error⟩
    · exact ⟨_, _, .decoded hread hdecode⟩
    · cases hfound : Reported.isNotFound error with
      | true => exact ⟨_, _, .passedOver hread hdecode hfound⟩
      | false => exact ⟨_, _, .undecodable hread hdecode hfound⟩

section
variable {path warning : Text} {config : Config} (h : Loads decoder disk path warning config)
include h

theorem Loads.load_eq :
    decoder.load disk path = .ok config ∧ warning = [] ∨
      ∃ e, decoder.load disk path = .error e ∧ config = .default ∧
        warning = if e.isNotFound then []
          else messageLine ("warning: " ++ e.message ++ ", using defaults") := by
  unfold Config.Decoder.load
  cases h with
  | decoded hread hdecode => exact .inl ⟨by simp only [hread, hdecode], rfl⟩
  | missing hread => exact .inr ⟨.unreadable path .notFound, by simp only [hread], rfl, rfl⟩
  | @unreadable fault hread hfault =>
    refine .inr ⟨.unreadable path fault, by simp only [hread], rfl, (if_neg ?_).symm⟩
    simpa [Config.LoadError.isNotFound] using hfault
  | @undecodable _ _ error hread hdecode hfound =>
    exact .inr ⟨.undecodable path error, by simp only [hread, hdecode], rfl,
      (if_neg (ne_true_of_eq_false hfound)).symm⟩
  | @passedOver _ _ error hread hdecode hfound =>
    exact .inr ⟨.undecodable path error, by simp only [hread, hdecode], rfl, (if_pos hfound).symm⟩

theorem Loads.warning_eq :
    warning = [] ∨ ∃ t : Text, warning = "warning: " ++ t ++ ", using defaults" ++ ['\n'] := by
  cases h with
  | decoded | missing | passedOver => exact .inl rfl
  | unreadable | undecodable => exact .inr ⟨_, rfl⟩

/-- Without a configuration there are the defaults, and no warning exactly when a file that does not
exist is the cause. -/
theorem Loads.eq_default {e : Config.LoadError ε} (hload : decoder.load disk path = .error e) :
    config = .default ∧ (warning = [] ↔ e.isNotFound = true) := by
  obtain ⟨hloaded, -⟩ | ⟨e', hrejected, hconfig, hwarning⟩ := h.load_eq
  · rw [hload] at hloaded
    cases hloaded
  · rw [hload] at hrejected
    cases hrejected
    refine ⟨hconfig, ?_⟩
    rw [hwarning]
    cases e.isNotFound with
    | true => exact iff_of_true rfl rfl
    | false => exact iff_of_false (List.append_ne_nil_of_right_ne_nil _ (by simp)) (by simp)

end

theorem configured_of_loads {o : Options} {warning : Text} {config : Config}
    (h : Loads decoder disk o.config warning config) :
    configured decoder disk o =
      (warning, if o.withProperties then config.withProperties true else config) := by
  unfold configured
  obtain ⟨hload, rfl⟩ | ⟨e, hload, rfl, rfl⟩ := h.load_eq
  · rw [hload]
    rfl
  · rw [hload]
    rfl

end Loading

theorem exists_ends (output : Output) (made : Text → Logged Text) (positional : List Text) :
    ∃ log exit stdout final, Ends output made positional log exit stdout final := by
  cases positional with
  | nil => exact ⟨_, _, _, _, .unnamed⟩
  | cons path rest =>
    rcases hmade : made path with ⟨log, f | content⟩
    · cases hfound : f.isNotFound with
      | true => exact ⟨_, _, _, _, .missing hmade hfound⟩
      | false => exact ⟨_, _, _, _, .failed hmade hfound⟩
    · cases hwrite : output content with
      | none => exact ⟨_, _, _, _, .written hmade hwrite⟩
      | some fault => exact ⟨_, _, _, _, .unwritten hmade hwrite⟩

theorem outcome_of_exit {stdout stderr message : Text} (h : message ≠ []) :
    Ended.outcome ⟨stdout, stderr, some (.exit message 1)⟩ =
      ⟨1, stdout, stderr ++ messageLine message⟩ := by
  have hempty : message.isEmpty = false := List.isEmpty_eq_false_iff.mpr h
  simp only [Ended.outcome, hempty, Bool.false_eq_true, if_false]

theorem usage_ne_nil : usage ≠ [] := by
  unfold usage
  simp only [ne_eq, String.toList_eq_nil_iff]
  decide

theorem failureMessage_ne_nil (path : Text) (f : Failure) : failureMessage path f ≠ [] := by
  unfold failureMessage
  split <;> simp

/-- What is on the standard error when a run ends stays there, before the final message. -/
theorem outcome_append (stdout earlier stderr : Text) (error : Option CommandError) :
    Ended.outcome ⟨stdout, earlier ++ stderr, error⟩ =
      let later := Ended.outcome ⟨stdout, stderr, error⟩
      { later with stderr := earlier ++ later.stderr } := by
  rcases error with _ | ⟨message, status⟩ | message
  · rfl
  · simp only [Ended.outcome, List.append_assoc]
  · simp only [Ended.outcome, List.append_assoc]

theorem outcome_serve (warning : Text) (session : Session) :
    (serve warning session).outcome =
      let served := (serve [] session).outcome
      { served with stderr := warning ++ served.stderr } := by
  unfold serve
  rw [List.append_assoc, outcome_append]
  rfl

section Run
variable {ε : Type} [Reported ε] {lib : Libraries ε} {disk : Disk} {output : Output}
  {args positional : List Text} {o : Options} {warning : Text} {config : Config}
  (hargs : lib.parse args = .action o positional)
  (hloads : Loads lib.decoder disk o.config warning config)
include hargs hloads

theorem run_of_ends (hserver : o.isServer = false) {log : List Text} {exit : Nat}
    {stdout final : Text}
    (hends : Ends output (engineDocument disk config o) positional log exit stdout final) :
    lib.run disk output args =
      ⟨exit, stdout, warning ++ (if o.isVerbose then logText log else []) ++ final⟩ := by
  have hdocument (path : Text) : document disk (Engine.registerStandard
      { config := if o.withProperties then config.withProperties true else config }) o.asMap path =
        engineDocument disk config o path := rfl
  unfold Libraries.run summarize
  simp only [hargs, configured_of_loads hloads, Engine.ofConfig?, Except.map, hserver,
    Bool.false_eq_true, if_false]
  cases hends with
  | unnamed =>
    change Ended.outcome ⟨[], warning, some (.exit usage 1)⟩ = _
    rw [outcome_of_exit usage_ne_nil]
    unfold messageLine usage
    rw [show logText [] = [] from rfl, ite_self, List.append_nil]
  | missing hmade hfound =>
    simp only [hdocument, hmade]
    rw [outcome_of_exit (failureMessage_ne_nil _ _), failureMessage, if_pos hfound, messageLine]
  | failed hmade hfound =>
    simp only [hdocument, hmade]
    rw [outcome_of_exit (failureMessage_ne_nil _ _), failureMessage,
      if_neg (ne_true_of_eq_false hfound), messageLine]
  | unwritten hmade hwrite =>
    simp only [hdocument, hmade, hwrite, Output.taken, Option.map_some]
    rw [outcome_of_exit (by simp), messageLine]
  | written hmade hwrite =>
    simp only [hdocument, hmade, hwrite, Output.taken, Option.map_none]
    rw [List.append_nil, Ended.outcome]

theorem run_of_server (hserver : o.isServer = true) :
    lib.run disk output args =
      (serve warning (lib.session (Engine.standard
        (if o.withProperties then config.withProperties true else config)) disk)).outcome := by
  unfold Libraries.run summarize
  simp only [hargs, configured_of_loads hloads, Engine.ofConfig?, Except.map, hserver, if_true]
  rfl

end Run

section Ended
variable {output : Output} {made : Text → Logged Text} {positional log : List Text} {exit : Nat}
  {stdout final : Text} (h : Ends output made positional log exit stdout final)
include h

end Ended

/-- A configuration that cannot be loaded leaves no trace but its warning, whatever was written
before decoding failed, also where the run serves tool calls. -/
theorem run_of_rejected_config {ε : Type} [Reported ε] (lib : Libraries ε) (disk : Disk)
    (output : Output) {args args' positional : List Text} {o : Options} {path : Text}
    {e : Config.LoadError ε} (hargs : lib.parse args = .action o positional)
    (hload : lib.decoder.load disk o.config = .error e)
    (hargs' : lib.parse args' = .action { o with config := path } positional)
    (hmissing : disk path = .error .notFound) :
    let outcome := lib.run disk output args
    let outcome' := lib.run disk output args'
    outcome.exit = outcome'.exit ∧ outcome.stdout = outcome'.stdout ∧
      ∃ warning, Loads lib.decoder disk o.config warning .default ∧
        (warning = [] ↔ e.isNotFound = true) ∧ outcome.stderr = warning ++ outcome'.stderr := by
  intro outcome outcome'
  obtain ⟨warning, config, hloads⟩ := exists_loads lib.decoder disk o.config
  obtain ⟨rfl, hwarning⟩ := hloads.eq_default hload
  have hloads' : Loads lib.decoder disk { o with config := path }.config [] .default :=
    .missing hmissing
  have hsame : outcome = { outcome' with stderr := warning ++ outcome'.stderr } := by
    cases hserver : o.isServer with
    | true =>
      have hrun : outcome = _ := run_of_server hargs hloads hserver
      have hrun' : outcome' = _ := run_of_server hargs' hloads' hserver
      rw [hrun, hrun']
      exact outcome_serve warning _
    | false =>
      obtain ⟨log, exit, stdout, final, hends⟩ :=
        exists_ends output (engineDocument disk .default o) positional
      have hrun : outcome = _ := run_of_ends hargs hloads hserver hends
      have hrun' : outcome' = _ := run_of_ends hargs' hloads' hserver hends
      rw [hrun, hrun', List.append_assoc]
      rfl
  rw [hsame]
  exact ⟨rfl, rfl, warning, hloads, hwarning, rfl⟩

/-- A file with a root type and then a setting that does not fit: the root type, which would be the
supertype in the outline, is dropped as well. -/
theorem run_of_rejected_config_half_read :
    let data := Utf8.encode "root_type: B\nmap: 1"
    let disk : Disk := fun path =>
      if path = "A.m" then .ok (Utf8.encode "@interface A\n@end")
      else if path = "c.yaml" then .ok data
      else .error .notFound
    let outcome := libraries.run disk (fun _ => none) ["--properties", "-c", "c.yaml", "A.m"]
    let outcome' := libraries.run disk (fun _ => none) ["--properties", "-c", "none.yaml", "A.m"]
    (libraries.decoder data .default).1.rootType = "B" ∧
      outcome.exit = outcome'.exit ∧ outcome.stdout = outcome'.stdout ∧
      ∃ t : Text, outcome.stderr =
        "warning: " ++ t ++ ", using defaults" ++ ['\n'] ++ outcome'.stderr := by
  intro data disk outcome outcome'
  have hargs : libraries.parse ["--properties", "-c", "c.yaml", "A.m"] =
      .action { withProperties := true, config := "c.yaml" } ["A.m"] := by decide +kernel
  have hargs' : libraries.parse ["--properties", "-c", "none.yaml", "A.m"] =
      .action { withProperties := true, config := "none.yaml" } ["A.m"] := by decide +kernel
  have hdecode : (libraries.decoder data .default).1.rootType = "B" ∧
      (libraries.decoder data .default).2 ≠ none := by decide +kernel
  rcases hwritten : libraries.decoder data .default with ⟨written, _ | error⟩
  · exact absurd (congrArg Prod.snd hwritten) hdecode.2
  · have hload : libraries.decoder.load disk "c.yaml" = .error (.undecodable "c.yaml" error) := by
      unfold Config.Decoder.load
      rw [show disk "c.yaml" = .ok data from rfl]
      simp only [hwritten]
    obtain ⟨hexit, hstdout, warning, hwarning, hnone, hstderr⟩ :=
      run_of_rejected_config libraries disk (fun _ => none) hargs hload hargs' rfl
    obtain rfl | ⟨t, rfl⟩ := hwarning.warning_eq
    · cases hnone.mp rfl
    · rw [hwritten] at hdecode
      exact ⟨hdecode.1, hexit, hstdout, t, hstderr⟩

end ObjcOutline.Command
