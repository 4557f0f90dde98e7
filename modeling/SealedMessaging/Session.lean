import SealedMessaging.Material.Origin
import SealedMessaging.Material.Use

/-!
# Sessions

A session holds material under names, the current time, and a source of random bytes. It goes on by
steps, each of which concerns the material of one name.

* `Session`, `Action`, `Step`: the state and what happens to it.
* `Session.step`: the session after a step, and the report on it.
* `Session.run`: the reports on several steps, each with the session after it.
-/

namespace SealedMessaging

/-- Named material, the current time, and the random bytes to come. -/
structure Session where
  materials : SortedMap String Material
  clock : Instant
  source : Bytes

/-- What happens to the material of a name. -/
inductive Action where
  /-- Material is made and put under the name. -/
  | create (origin : Origin)
  /-- The material is written as a snapshot and loaded again. -/
  | reload
  | use (use : Use)
  deriving DecidableEq

/-- One step of a session. -/
structure Step where
  name : String
  /-- The time from this step on, if it changes. -/
  clock : Option Instant
  /-- The random bytes to come from this step on, if they are replaced. -/
  source : Option Bytes
  action : Action
  deriving DecidableEq

/-- What goes wrong with a step. -/
inductive StepFault where
  /-- There is no material by the name. -/
  | missing (name : String)
  | origin (fault : OriginFault)
  | use (fault : UseFault)
  deriving DecidableEq

/-- The text of a fault, if it has one. -/
def StepFault.message? : StepFault → Option String
  | .missing name => some ("no key material named " ++ name)
  | .origin fault => fault.message?
  | .use fault => fault.message?

namespace Session

/-- The session in which nothing has happened, at a given time. -/
def start (clock : Instant) : Session :=
  ⟨.empty, clock, []⟩

/-- The material of a name. -/
def material? (s : Session) (name : String) : Option Material :=
  s.materials.get? name

/-- The session in which a name has a given material. -/
def put (s : Session) (name : String) (m : Material) : Session :=
  { s with materials := s.materials.insert name m }

/-- The session in which the time and the random bytes of a step have taken effect. -/
def prepare (s : Session) (step : Step) : Session :=
  { s with clock := step.clock.getD s.clock, source := step.source.getD s.source }

/-- Puts the material of an origin under a name, if there is any. The random bytes it took are gone
in either case. -/
def create (s : Session) (name : String) (origin : Origin) : Session × Report StepFault Answer :=
  let (made, source) := origin.make s.source
  let s := { s with source }
  match made.outcome with
  | .ok m => (s.put name m, ⟨.ok .done, made.events⟩)
  | .error fault => (s, ⟨.error (.origin fault), made.events⟩)

/-- What happens to the material of a name in one action, and the report on it. -/
def act (s : Session) (name : String) : Action → Session × Report StepFault Answer
  | .create origin => s.create name origin
  | .reload =>
    match s.material? name with
    | none => (s, .fail (.missing name))
    | some m => s.create name (.snapshot .text (Snapshot.write m))
  | .use use =>
    match s.material? name with
    | none => (s, .fail (.missing name))
    | some m =>
      let (m', r) := m.step s.clock use
      (s.put name m', r.mapError .use)

/-- **One step**: the session after it, and the report on it. -/
def step (s : Session) (step : Step) : Session × Report StepFault Answer :=
  (s.prepare step).act step.name step.action

/-- **The reports on several steps**, each with the session after it. -/
def run (s : Session) : List Step → List (Report StepFault Answer × Session)
  | [] => []
  | first :: rest =>
    let (s, r) := s.step first
    (r, s) :: s.run rest

end Session

end SealedMessaging
