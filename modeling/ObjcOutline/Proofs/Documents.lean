import ObjcOutline.Tools.Basic
import ObjcOutline.Proofs.CommandOutput

/-!
# Documents of the command and of the tools

The command changes the configuration before it builds its engine; a tool call leaves the engine as
it is and builds a renderer for the call. Both give the same documents: the command succeeds with a
text exactly when the tool answers with it, and a missing file is reported in the same words.
-/
namespace ObjcOutline

namespace Command

section Document
variable (disk : Disk) (config : Config) {o : Options} (path : Text)

/-- The choice about properties does not reach the outline. -/
theorem engineDocument_outline (hmode : o.asMap = false) :
    engineDocument disk config o path = (Engine.standard config).outline disk .live path := by
  rw [engineDocument, hmode]
  cases o.withProperties with
  | true => exact Engine.outline_withProperties ..
  | false => rfl

theorem engineDocument_symbolMap (hmode : o.asMap = true) (hproperties : o.withProperties = false) :
    engineDocument disk config o path = (Engine.standard config).symbolMap disk .live path := by
  rw [engineDocument, hmode, hproperties]
  rfl

theorem engineDocument_symbolMapWith (hmode : o.asMap = true)
    (hproperties : o.withProperties = true) :
    engineDocument disk config o path =
      (Engine.standard config).symbolMapWith disk .live path true := by
  rw [engineDocument, hmode, hproperties]
  exact Engine.symbolMap_withProperties ..

end Document

section Run
variable {ε : Type} [Reported ε] {lib : Libraries ε} {disk : Disk} {args rest : List Text}
  {o : Options} {path warning : Text} {config : Config}
  (hargs : lib.parse args = .action o (path :: rest)) (hserver : o.isServer = false)
  (hloads : Loads lib.decoder disk o.config warning config)
include hargs hserver hloads

/-- Where it can be written, a run ends with zero exactly when the document is made, and then it
writes the document. -/
theorem run_eq_iff {s : Text} :
    (lib.run disk (fun _ => none) args).exit = 0 ∧ (lib.run disk (fun _ => none) args).stdout = s ↔
      (engineDocument disk config o path).result = .ok s := by
  obtain ⟨log, exit, stdout, final, hends⟩ :=
    exists_ends (fun _ => none) (engineDocument disk config o) (path :: rest)
  rw [run_of_ends hargs hloads hserver hends]
  cases hends with
  | missing hmade | failed hmade => simp [hmade]
  | unwritten _ hwrite => cases hwrite
  | written hmade => simp [hmade]

theorem run_of_fail {f : Failure} (hmade : engineDocument disk config o path = .fail f)
    (hfound : f.isNotFound = true) :
    lib.run disk (fun _ => none) args =
      ⟨1, [], warning ++ ("Error: File not found: " ++ path ++ ['\n'])⟩ := by
  rw [run_of_ends hargs hloads hserver (.missing hmade hfound)]
  simp only [logText, List.flatMap_nil, ite_self, List.append_nil]

end Run

end Command

namespace Tools

/-- The answer with a document, or with what `refused` says of a failure. -/
def Reply.ofResult (refused : Failure → Reply) : Except Failure Text → Reply
  | .ok text => ⟨text, false⟩
  | .error f => refused f

theorem Reply.ofResult_eq_iff {refused : Failure → Reply} (h : ∀ f, (refused f).isError = true)
    {result : Except Failure Text} {s : Text} :
    ofResult refused result = ⟨s, false⟩ ↔ result = .ok s := by
  cases result with
  | ok text => simp [ofResult]
  | error f =>
    refine iff_of_false (fun heq => ?_) (fun heq => by cases heq)
    have herror := h f
    rw [show refused f = ⟨s, false⟩ from heq] at herror
    cases herror

def mapFailureReply (f : Failure) : Reply := ⟨"symbol map failed: " ++ f.message, true⟩

section Answer
variable (e : Engine) (disk : Disk) {path : Text} (hpath : path ≠ [])
include hpath

theorem answer_outline :
    (answer e disk (.outline path)).2 =
      .ofResult (failureReply "summarize failed" path) (e.outline disk .live path).result := by
  cases path with
  | nil => exact absurd rfl hpath
  | cons c path => rfl

theorem answer_symbolMap :
    (answer e disk (.symbolMap path none)).2 =
      .ofResult mapFailureReply (e.symbolMap disk .live path).result := by
  cases path with
  | nil => exact absurd rfl hpath
  | cons c path => rfl

theorem answer_symbolMap_with (choice : Bool) :
    (answer e disk (.symbolMap path (some choice))).2 =
      .ofResult mapFailureReply (e.symbolMapWith disk .live path choice).result := by
  cases path with
  | nil => exact absurd rfl hpath
  | cons c path => rfl

end Answer

end Tools

/-- The command gives the documents that the tools give over its configuration: for every command
line that the library reads as a summary of the path, and every way to load the configuration. -/
theorem command_agrees_with_tools {ε : Type} [Reported ε] (lib : Command.Libraries ε) (disk : Disk)
    {args rest : List Text} {o : Command.Options} {path warning : Text} {config : Config}
    (hargs : lib.parse args = .action o (path :: rest)) (hserver : o.isServer = false)
    (hloads : Command.Loads lib.decoder disk o.config warning config) (hpath : path ≠ []) :
    let outcome := lib.run disk (fun _ => none) args
    let reply (call : Tools.Call) := (Tools.answer (.standard config) disk call).2
    (o.asMap = false → ∀ s, outcome.exit = 0 ∧ outcome.stdout = s ↔
      reply (.outline path) = ⟨s, false⟩) ∧
    (o.asMap = true → o.withProperties = false → ∀ s, outcome.exit = 0 ∧ outcome.stdout = s ↔
      reply (.symbolMap path none) = ⟨s, false⟩) ∧
    (o.asMap = true → o.withProperties = true → ∀ s, outcome.exit = 0 ∧ outcome.stdout = s ↔
      reply (.symbolMap path (some true)) = ⟨s, false⟩) ∧
    (o.asMap = false → disk path = .error .notFound →
      outcome = ⟨1, [], warning ++ ("Error: File not found: " ++ path ++ ['\n'])⟩ ∧
      reply (.outline path) = ⟨"Error: File not found: " ++ path, true⟩) := by
  intro outcome reply
  have hrun {s : Text} := Command.run_eq_iff hargs hserver hloads (s := s)
  refine ⟨?_, ?_, ?_, ?_⟩
  · intro hmode s
    rw [Command.engineDocument_outline disk config path hmode] at hrun
    rw [show reply (.outline path) = _ from Tools.answer_outline _ disk hpath,
      Tools.Reply.ofResult_eq_iff fun f => rfl]
    exact hrun
  · intro hmode hproperties s
    rw [Command.engineDocument_symbolMap disk config path hmode hproperties] at hrun
    rw [show reply (.symbolMap path none) = _ from Tools.answer_symbolMap _ disk hpath,
      Tools.Reply.ofResult_eq_iff fun f => rfl]
    exact hrun
  · intro hmode hproperties s
    rw [Command.engineDocument_symbolMapWith disk config path hmode hproperties] at hrun
    rw [show reply (.symbolMap path (some true)) = _ from
      Tools.answer_symbolMap_with _ disk hpath true, Tools.Reply.ofResult_eq_iff fun f => rfl]
    exact hrun
  · intro hmode hmissing
    have hfail := Engine.outline_of_notFound config .live hmissing
    constructor
    · exact Command.run_of_fail hargs hserver hloads
        ((Command.engineDocument_outline disk config path hmode).trans hfail) rfl
    · rw [show reply (.outline path) = _ from Tools.answer_outline _ disk hpath, hfail]
      rfl

/-- The symbol map with properties of a file, without a configuration file. -/
theorem command_agrees_with_tools_on_map :
    let disk : Disk := fun path =>
      if path = "A.m" then .ok (Utf8.encode "@interface A\n@property int x;\n@end\n")
      else .error .notFound
    let outcome := Command.libraries.run disk (fun _ => none) ["--map", "--properties", "A.m"]
    outcome.exit = 0 ∧
      (Tools.answer (.standard .default) disk (.symbolMap "A.m" (some true))).2 =
        ⟨outcome.stdout, false⟩ := by
  intro disk outcome
  have hexit : outcome.exit = 0 := by decide +kernel
  have hargs : Command.libraries.parse ["--map", "--properties", "A.m"] =
      .action ⟨true, ".objcskel.yaml", true, false, false⟩ ["A.m"] := by decide +kernel
  have hagrees := command_agrees_with_tools Command.libraries disk hargs rfl (.missing rfl)
    (by decide)
  exact ⟨hexit, (hagrees.2.2.1 rfl rfl outcome.stdout).mp ⟨hexit, rfl⟩⟩

end ObjcOutline
