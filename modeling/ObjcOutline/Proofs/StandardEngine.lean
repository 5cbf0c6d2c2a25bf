import ObjcOutline.Pipeline.Engine
import ObjcOutline.Storage.FileTree

/-!
# The standard engine

A standard engine has one extractor, so it runs the line scanner whatever extractor the
configuration names. A file that can be read is then extracted, and the skeleton is that of its
decoded text. The settings of the symbol map are read by nothing but its renderer, so an engine that
is built with another choice about properties makes the same outlines, and the symbol maps that the
first engine makes when it is asked with that choice.

What a document depends on is how its file can be read. A missing file fails the outline and has the
symbol map of an empty one; any other fault fails all documents alike; and nothing fails when the
file can be read, whatever its bytes are.
-/
namespace ObjcOutline

/-- The configuration with another choice about properties in the symbol map. -/
def Config.withProperties (c : Config) (choice : Bool) : Config :=
  { c with map := { c.map with includeProperties := choice } }

namespace Engine
variable (c : Config) (disk : Disk) (context : Context) (path : Text)

theorem select?_standard (name : Text) :
    (standard c).extractors.select? name = some (.lineScanner c.rootType) := by
  unfold Registry.select? Registry.get?
  by_cases hname : Named.name (Extractor.lineScanner c.rootType) == name
  · simp [standard, registerStandard, registerRenderer, registerExtractor, Registry.register, hname]
  · simp [standard, registerStandard, registerRenderer, registerExtractor, Registry.register, hname]

theorem result_extract (data : Bytes) :
    ((standard c).extract .live path data).result =
      .ok (Skeleton.ofSource c.rootType path (Utf8.decode data)) := by
  unfold extract
  rw [show (standard c).config = c from rfl, select?_standard]
  simp only
  split <;> rfl

/-- A file that can be read is extracted, also where a missing one would be passed over. -/
theorem result_load {data : Bytes} (h : disk path = .ok data) (allowMissing : Bool) :
    ((standard c).load disk .live path allowMissing).result =
      .ok (Skeleton.ofSource c.rootType path (Utf8.decode data)) := by
  unfold load
  simp only [h]
  rw [← result_extract c path data]
  split <;> rfl

/-- A missing file has no outline, and nothing is logged about it. -/
theorem outline_of_notFound {disk : Disk} {path : Text} (h : disk path = .error .notFound) :
    (standard c).outline disk context path =
      .fail (.reading path (.unreadable path .notFound)) := by
  unfold outline load
  rw [h]
  rfl

theorem outline_withProperties (choice : Bool) :
    (standard (c.withProperties choice)).outline disk context path =
      (standard c).outline disk context path := rfl

theorem symbolMap_withProperties (choice : Bool) :
    (standard (c.withProperties choice)).symbolMap disk context path =
      (standard c).symbolMapWith disk context path choice := rfl

section Fault
variable (e : Engine) {disk : Disk} {path : Text} {fault : ReadFault}
  (h : disk path = .error fault)
include h

theorem load_of_fault (hfault : fault ≠ .notFound) (allowMissing : Bool) :
    e.load disk context path allowMissing = .fail (.reading path (.unreadable path fault)) := by
  unfold load
  simp [h, hfault]

/-- Any fault but a missing file fails all documents in the same way. -/
theorem documents_of_fault (hfault : fault ≠ .notFound) (choice : Bool) :
    let failed := Logged.fail (.reading path (.unreadable path fault))
    e.outline disk context path = failed ∧ e.symbolMap disk context path = failed ∧
      e.symbolMapWith disk context path choice = failed := by
  unfold outline symbolMap symbolMapWith
  simp only [load_of_fault context e h hfault]
  exact ⟨rfl, rfl, rfl⟩

end Fault

/-- A missing file is passed over as an empty one. -/
theorem result_load_of_notFound {disk : Disk} {path : Text} (h : disk path = .error .notFound) :
    ((standard c).load disk .live path true).result =
      ((standard c).extract .live path []).result := by
  rw [result_extract]
  unfold load
  simp only [h]
  rfl

section Loaded
variable {c disk path} {s : Skeleton}

/-- The outline of a skeleton that was loaded is rendered; the renderer does not fail. -/
theorem result_outline (h : ((standard c).load disk .live path false).result = .ok s) :
    ∃ a, ((standard c).render .live Renderer.outlineName s).result = .ok a ∧
      ((standard c).outline disk .live path).result = .ok a.content :=
  ⟨_, rfl, Logged.result_bind_of_ok h _⟩

theorem result_symbolMap (h : ((standard c).load disk .live path true).result = .ok s) :
    ∃ a, ((standard c).render .live Renderer.symbolMapName s).result = .ok a ∧
      ((standard c).symbolMap disk .live path).result = .ok a.content :=
  ⟨_, rfl, Logged.result_bind_of_ok h _⟩

theorem result_symbolMapWith (h : ((standard c).load disk .live path true).result = .ok s)
    (choice : Bool) :
    ∃ a, (renderWith (.symbolMap choice c.map.indent) .live s).result = .ok a ∧
      ((standard c).symbolMapWith disk .live path choice).result = .ok a.content :=
  ⟨_, rfl, Logged.result_bind_of_ok h _⟩

end Loaded

end Engine

/-- How a file can be read decides which documents there are. -/
theorem documents_by_reading (c : Config) (disk : Disk) (path : Text) :
    let e := Engine.standard c
    (disk path = .error .notFound →
      (∃ f, (e.outline disk .live path).result = .error f ∧ f.isNotFound = true) ∧
      ∃ s, (e.extract .live path []).result = .ok s ∧
        (∃ a, (e.render .live Renderer.symbolMapName s).result = .ok a ∧
          (e.symbolMap disk .live path).result = .ok a.content) ∧
        ∀ choice, ∃ a,
          (Engine.renderWith (.symbolMap choice c.map.indent) .live s).result = .ok a ∧
          (e.symbolMapWith disk .live path choice).result = .ok a.content) ∧
    (∀ fault, disk path = .error fault → fault ≠ .notFound →
      ∃ f : Failure, f.isNotFound = false ∧
        f.message = "reading " ++ path ++ ": " ++ fault.message path ∧
        (e.outline disk .live path).result = .error f ∧
        (e.symbolMap disk .live path).result = .error f ∧
        ∀ choice, (e.symbolMapWith disk .live path choice).result = .error f) ∧
    (∀ data, disk path = .ok data →
      (∃ text, (e.outline disk .live path).result = .ok text) ∧
      (∃ text, (e.symbolMap disk .live path).result = .ok text) ∧
      ∀ choice, ∃ text, (e.symbolMapWith disk .live path choice).result = .ok text) := by
  intro e
  refine ⟨?_, ?_, ?_⟩
  · intro hmissing
    have hextract := Engine.result_extract c path []
    have hload := (Engine.result_load_of_notFound c hmissing).trans hextract
    refine ⟨⟨_, congrArg Logged.result (Engine.outline_of_notFound c .live hmissing), rfl⟩,
      _, hextract, Engine.result_symbolMap hload, Engine.result_symbolMapWith hload⟩
  · intro fault hread hfault
    have hfailed choice := Engine.documents_of_fault .live e hread hfault choice
    refine ⟨.reading path (.unreadable path fault), ?_, rfl,
      congrArg Logged.result (hfailed true).1, congrArg Logged.result (hfailed true).2.1,
      fun choice => congrArg Logged.result (hfailed choice).2.2⟩
    cases fault with
    | notFound => exact absurd rfl hfault
    | isDirectory | notDirectory | nameTooLong | invalidName | other => rfl
  · intro data hread
    have hload := Engine.result_load c disk path hread
    obtain ⟨outline, -, houtline⟩ := Engine.result_outline (hload false)
    obtain ⟨map, -, hmap⟩ := Engine.result_symbolMap (hload true)
    refine ⟨⟨_, houtline⟩, ⟨_, hmap⟩, fun choice => ?_⟩
    obtain ⟨map, -, hmap⟩ := Engine.result_symbolMapWith (hload true) choice
    exact ⟨_, hmap⟩

/-- A directory with one file in it that holds no text: the file has an outline, a path next to it
only a symbol map, and the directory nothing. -/
theorem documents_by_reading_in_directory :
    let disk := (({} : FileTree).write "lib/A.m" [0xff, 0x00]).read
    let e := Engine.standard .default
    (∃ text, (e.outline disk .live "lib/A.m").result = .ok text) ∧
    (∃ f, (e.outline disk .live "lib/B.m").result = .error f ∧ f.isNotFound = true) ∧
    (∃ text, (e.symbolMap disk .live "lib/B.m").result = .ok text) ∧
    ∃ f : Failure, f.message = "reading lib: read lib: is a directory" ∧
      (e.symbolMap disk .live "lib").result = .error f := by
  intro disk e
  have hfile := (documents_by_reading .default disk "lib/A.m").2.2 [0xff, 0x00] rfl
  have hmissing := (documents_by_reading .default disk "lib/B.m").1 rfl
  obtain ⟨f, -, hmessage, -, hmap, -⟩ :=
    (documents_by_reading .default disk "lib").2.1 .isDirectory rfl (by decide)
  obtain ⟨houtline, s, -, ⟨a, -, hempty⟩, -⟩ := hmissing
  exact ⟨hfile.1, houtline, ⟨_, hempty⟩, f, hmessage, hmap⟩

end ObjcOutline
