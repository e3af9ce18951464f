import Asimposium.Render.Text

/-!
# Content controls

`hiddenByContentControlSql`: a target is hidden while its latest control
hides it. A control names a problem, an object, a version of an object or an
event by its sequence number.
-/

namespace Asimposium.PublicContent

/-- A row of `content_controls`. -/
structure Control where
  targetRef : Text
  version : Nat
  isHidden : Bool

/-- `hiddenByContentControlSql`. -/
def hiddenByContentControl (controls : List Control) (target : Text) : Bool :=
  controls.any fun c => c.targetRef == target && c.isHidden
    && controls.all fun latest => latest.targetRef != target || latest.version ≤ c.version

/-- The controls of an event's object, of its version and of the event. -/
def eventTargets (objectId : Text) (objectVersion : Int) (seq : Nat) : List Text :=
  [objectId, objectId ++ unit '@' :: Text.ofInt objectVersion, unit '#' :: Text.decimal seq]

end Asimposium.PublicContent
