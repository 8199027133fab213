import CallBridge.Adapt

/-!
# Collectors

A collector lets a function that takes an array at its end be called with the
elements as separate arguments. Each number of arguments needs a collecting handle
of its own; handles once built are kept and used again.
-/

namespace CallBridge

/-- A function whose last parameter also accepts its elements one by one. -/
structure Collector where
  host : Host
  target : Handle
  array : Ty
  /-- The collecting handles built so far with the arity they serve, in ascending order. -/
  built : List (Nat × Handle)

namespace Host

/-- Makes a collector over the last parameter of `target`. -/
def collector (h : Host) (target : Handle) (array : Ty) : Except AdaptError Collector :=
  let fits := array.elem?.isSome && target.signature.lastParam?.any array.passesFreely
  if fits then .ok ⟨h, target, array, []⟩
  else .error (.notCollectable target.signature array)

end Host

namespace Collector

def signature (c : Collector) : Signature :=
  c.target.signature

/-- The arities that have a collecting handle, ascending. -/
def arities (c : Collector) : List Nat :=
  c.built.map Prod.fst

def find? (c : Collector) (arity : Nat) : Option Handle :=
  (c.built.find? fun entry => entry.1 == arity).map Prod.snd

/-- Puts a handle at its place in an ascending list, replacing one of the same arity. -/
def insertByArity (arity : Nat) (handle : Handle) : List (Nat × Handle) → List (Nat × Handle)
  | [] => [(arity, handle)]
  | (k, other) :: rest =>
    if arity < k then (arity, handle) :: (k, other) :: rest
    else if arity = k then (arity, handle) :: rest
    else (k, other) :: insertByArity arity handle rest

theorem find?_insertByArity (arity k : Nat) (handle : Handle) (entries : List (Nat × Handle)) :
    (insertByArity arity handle entries).find? (fun entry => entry.1 == k) =
      if arity = k then some (arity, handle) else entries.find? fun entry => entry.1 == k := by
  induction entries with
  | nil => by_cases h : arity = k <;> simp [insertByArity, h]
  | cons entry rest ih =>
    obtain ⟨j, other⟩ := entry
    simp only [insertByArity]
    split
    · by_cases h : arity = k <;> simp [h]
    · split
      · by_cases h : arity = k
        · simp [h]
        · have hj : j ≠ k := by omega
          simp [h, hj]
      · by_cases hj : j = k
        · have h : arity ≠ k := by omega
          simp [hj, h]
        · simp [hj, ih]

def insert (c : Collector) (arity : Nat) (handle : Handle) : Collector :=
  { c with built := insertByArity arity handle c.built }

/-- Whether a caller passes the array itself. -/
def passesArray (c : Collector) (new : Signature) : Bool :=
  new.arity == c.signature.arity && new.lastParam?.any c.array.accepts

/-- Calls the function with any number of trailing elements, or with the array itself. A collecting
    handle is kept even if it cannot be adapted to the caller. -/
def adapt (c : Collector) (new : Signature) : Except AdaptError Handle × Collector :=
  if c.passesArray new then (c.host.adapt new c.target, c)
  else
    match c.find? new.arity with
    | some handle => (c.host.adapt new handle, c)
    | none =>
      if new.arity + 1 < c.signature.arity then (.error (.notConvertible c.signature new), c)
      else
        match c.target.collecting? c.array (new.arity + 1 - c.signature.arity) with
        | some handle => (c.host.adapt new handle, c.insert new.arity handle)
        | none => (.error (.notConvertible c.signature new), c)

/-- The collector over the same function for another array type; the collector itself if the type
    is the same. -/
def retarget (c : Collector) (array : Ty) : Except AdaptError Collector :=
  if array = c.array then .ok c else c.host.collector c.target array

end Collector

end CallBridge
