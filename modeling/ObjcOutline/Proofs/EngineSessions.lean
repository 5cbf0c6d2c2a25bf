import ObjcOutline.Proofs.StandardEngine

/-!
# Sessions with an engine

An engine is used in a session: extractors and renderers are registered, and documents are asked
for, while the disk and the context may change from one operation to the next. Extractors and
renderers are functions of what they are given, so only a registration changes the engine.

Two things follow about the symbol map with another choice about properties. Asking for it is the
same as asking an engine for its symbol map that was built with that choice and went through the
same session, whatever was registered: the renderer that the engine was built with is the first of
its name. And a session in which it was asked for goes on as if it had not been.
-/
namespace ObjcOutline.Engine

/-- What can be asked of an engine. -/
inductive Operation
  | registerExtractor (x : Extractor)
  | registerRenderer (r : Renderer)
  | load (path : Text) (allowMissing : Bool)
  | extract (path : Text) (data : Bytes)
  | render (name : Text) (s : Skeleton)
  | outline (path : Text)
  | symbolMap (path : Text)
  | symbolMapWith (path : Text) (withProperties : Bool)

/-- An operation with the disk and the context that it meets. -/
structure Step where
  disk : Disk
  context : Context
  operation : Operation

/-- What an operation gives back. -/
inductive Answer
  | registered
  | skeleton (out : Logged Skeleton)
  | artifact (out : Logged Artifact)
  | document (out : Logged Text)

/-- Carries out one step: the engine after it, and the answer. -/
def perform (e : Engine) (s : Step) : Engine × Answer :=
  match s.operation with
  | .registerExtractor x => (e.registerExtractor x, .registered)
  | .registerRenderer r => (e.registerRenderer r, .registered)
  | .load path allowMissing => (e, .skeleton (e.load s.disk s.context path allowMissing))
  | .extract path data => (e, .skeleton (e.extract s.context path data))
  | .render name skeleton => (e, .artifact (e.render s.context name skeleton))
  | .outline path => (e, .document (e.outline s.disk s.context path))
  | .symbolMap path => (e, .document (e.symbolMap s.disk s.context path))
  | .symbolMapWith path choice => (e, .document (e.symbolMapWith s.disk s.context path choice))

def after (e : Engine) : List Step → Engine
  | [] => e
  | s :: session => (e.perform s).1.after session

def answers (e : Engine) : List Step → List Answer
  | [] => []
  | s :: session => (e.perform s).2 :: (e.perform s).1.answers session

theorem length_answers (e : Engine) (session : List Step) :
    (e.answers session).length = session.length := by
  induction session generalizing e with
  | nil => rfl
  | cons s session ih => rw [answers, List.length_cons, List.length_cons, ih]

theorem answers_append (e : Engine) (earlier later : List Step) :
    e.answers (earlier ++ later) = e.answers earlier ++ (e.after earlier).answers later := by
  induction earlier generalizing e with
  | nil => rfl
  | cons s earlier ih => rw [List.cons_append, answers, answers, after, ih, List.cons_append]

/-- A step that leaves the engine as it is can be taken out of a session. -/
theorem eraseIdx_answers {e : Engine} {earlier : List Step} {s : Step}
    (h : ((e.after earlier).perform s).1 = e.after earlier) (later : List Step) :
    (e.answers (earlier ++ s :: later)).eraseIdx earlier.length = e.answers (earlier ++ later) := by
  rw [answers_append, answers_append, answers, h,
    List.eraseIdx_append_of_length_le (Nat.le_of_eq (length_answers e earlier)),
    length_answers, Nat.sub_self, List.eraseIdx_cons_zero]

/-- The second engine is set up like the first, but with the given choice about properties. Of its
renderers only the one for the symbol map matters. -/
structure Reconfigured (choice : Bool) (e e' : Engine) : Prop where
  config : e'.config = e.config.withProperties choice
  extractors : e'.extractors = e.extractors
  symbolMap : e'.renderers.get? Renderer.symbolMapName =
    some (.symbolMap choice e.config.map.indent)

namespace Reconfigured
variable {choice : Bool} {e e' : Engine}

theorem standard (c : Config) (choice : Bool) :
    Reconfigured choice (standard c) (standard (c.withProperties choice)) :=
  ⟨rfl, rfl, rfl⟩

theorem perform (h : Reconfigured choice e e') (s : Step) :
    Reconfigured choice (e.perform s).1 (e'.perform s).1 := by
  obtain ⟨disk, context, operation⟩ := s
  cases operation with
  | registerExtractor x =>
    exact ⟨h.config, congrArg (·.register x) h.extractors, h.symbolMap⟩
  | registerRenderer r =>
    refine ⟨h.config, h.extractors, ?_⟩
    -- The name is taken, so the new renderer is not found under it.
    change (e'.renderers.register r).get? Renderer.symbolMapName = _
    rw [Registry.get?_register, h.symbolMap]
    rfl
  | load | extract | render | outline | symbolMap | symbolMapWith => exact h

theorem after (h : Reconfigured choice e e') (session : List Step) :
    Reconfigured choice (e.after session) (e'.after session) := by
  induction session generalizing e e' with
  | nil => exact h
  | cons s session ih => exact ih (h.perform s)

theorem extract (h : Reconfigured choice e e') (context : Context) (path : Text) (data : Bytes) :
    e'.extract context path data = e.extract context path data := by
  unfold Engine.extract
  rw [h.config, h.extractors]
  rfl

theorem load (h : Reconfigured choice e e') (disk : Disk) (context : Context) (path : Text)
    (allowMissing : Bool) :
    e'.load disk context path allowMissing = e.load disk context path allowMissing := by
  unfold Engine.load
  simp only [h.extract]

theorem render (h : Reconfigured choice e e') (context : Context) (s : Skeleton) :
    e'.render context Renderer.symbolMapName s =
      renderWith (.symbolMap choice e.config.map.indent) context s := by
  unfold Engine.render
  rw [h.symbolMap]

theorem symbolMapWith (h : Reconfigured choice e e') (disk : Disk) (context : Context)
    (path : Text) :
    e.symbolMapWith disk context path choice = e'.symbolMap disk context path := by
  unfold Engine.symbolMapWith Engine.symbolMap
  rw [h.load]
  simp only [h.render]

end Reconfigured

end Engine

/-- After any session, the symbol map with a choice about properties is the symbol map of the engine
that was built with that choice and went through the same session, content or failure and log; and
asking for it changes none of the answers that follow. Registered extractors and renderers are pure
functions here: one that keeps a state of its own from call to call is outside both parts. -/
theorem symbolMapWith_eq_reconfigured (c : Config) (choice : Bool) (session : List Engine.Step)
    (disk : Disk) (context : Context) (path : Text) :
    ((Engine.standard c).after session).symbolMapWith disk context path choice =
      ((Engine.standard (c.withProperties choice)).after session).symbolMap disk context path ∧
    ∀ later : List Engine.Step,
      ((Engine.standard c).answers
          (session ++ ⟨disk, context, .symbolMapWith path choice⟩ :: later)).eraseIdx
            session.length =
        (Engine.standard c).answers (session ++ later) :=
  ⟨((Engine.Reconfigured.standard c choice).after session).symbolMapWith disk context path,
    Engine.eraseIdx_answers rfl⟩

end ObjcOutline
