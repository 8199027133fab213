import CallBridge.Collector
import CallBridge.Handle.Invoke
import CallBridge.Request

/-!
# Sessions

A session builds on one function step by step: it holds the handle built so far
and at most one collector, and answers a command at a time. A command that fails
leaves the handle alone.
-/

namespace CallBridge

/-- The state between two commands. -/
structure Session where
  host : Host
  /-- The function the session started with. -/
  target : Handle
  current : Handle
  collector : Option Collector

/-- What a session can be asked to do. -/
inductive Command where
  /-- Calls the current handle with another signature. -/
  | build (new : Signature) (request : Request)
  | reset
  | display
  | invoke (args : List Value)
  /-- Makes a collector over the current handle. -/
  | collect (array : Ty)
  /-- Turns the collector to another array type. -/
  | retarget (array : Ty)
  /-- Calls the function of the collector with the given signature. -/
  | adaptCollector (new : Signature)

/-- What a session answers. -/
inductive Reply where
  | built (allowed : Bool) (result : Except AdaptError Handle)
  | handle (h : Handle)
  | text (s : String)
  | invoked (result : Except InvokeError Value)
  | collector (result : Except AdaptError Collector)
  | adapted (result : Except AdaptError Handle) (state : Collector)
  | noCollector

namespace Session

def start (host : Host) (target : Handle) : Session :=
  ⟨host, target, target, none⟩

/-- The session with the handle that was built, if one was. -/
def advance (s : Session) : Except AdaptError Handle → Session
  | .ok handle => { s with current := handle }
  | .error _ => s

/-- Obeys a command. -/
def step (s : Session) : Command → Reply × Session
  | .build new request =>
    let result := s.host.build new s.current request
    (.built (s.host.allows new s.current.signature request) result, s.advance result)
  | .reset => (.handle s.target, { s with current := s.target })
  | .display => (.text s.current.chainText, s)
  | .invoke args => (.invoked (s.current.invoke args), s)
  | .collect array =>
    match s.host.collector s.current array with
    | .ok c => (.collector (.ok c), { s with collector := some c })
    | .error e => (.collector (.error e), s)
  | .retarget array =>
    match s.collector with
    | none => (.noCollector, s)
    | some c =>
      match c.retarget array with
      | .ok c => (.collector (.ok c), { s with collector := some c })
      | .error e => (.collector (.error e), { s with collector := none })
  | .adaptCollector new =>
    match s.collector with
    | none => (.noCollector, s)
    | some c =>
      let (result, c) := c.adapt new
      (.adapted result c, { s.advance result with collector := some c })

end Session

end CallBridge
