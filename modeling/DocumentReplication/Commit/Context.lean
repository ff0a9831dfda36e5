import DocumentReplication.Bytes
import DocumentReplication.ChangeVector.Text
import DocumentReplication.Dictionary

/-!
What a write transaction keeps in mind while commands run in it: the database change vector it will
persist, the etags reached by each source, the instances it ignores, and a scratch area for records.

`mergeVector` is how a vector enters the accumulated one: transactional entries and entries of
ignored instances never get in.
-/

namespace DocumentReplication

/-- Work on a state that stays changed even where the work fails. -/
abbrev Work (σ α : Type) := ExceptT Fault (StateM σ) α

structure Context where
  scratch : Bytes
  /-- The text of the accumulated database change vector. -/
  vectorText : Option String
  etags : Dictionary String Int64
  ignored : List String
  /-- Whether the persisted vector may lose entries. -/
  skipsValidation : Bool
  /-- Whether nothing was written since the last reset. -/
  cleared : Bool
deriving Repr

namespace Context

def fresh : Context := ⟨[], none, .empty, [], false, true⟩

instance : Inhabited Context := ⟨fresh⟩

def touch (context : Context) : Context := { context with cleared := false }

def writeScratch (bytes : Bytes) (context : Context) : Context :=
  { context.touch with scratch := bytes }

def ignore (instanceId : String) (context : Context) : Context :=
  let ignored := if context.ignored.contains instanceId then context.ignored
    else context.ignored ++ [instanceId]
  { context.touch with ignored := ignored }

def ignoreAll (instanceIds : List String) (context : Context) : Context :=
  instanceIds.foldl (fun context instanceId => context.ignore instanceId) context

def skipValidation (context : Context) : Context :=
  { context.touch with skipsValidation := true }

/-- Etags only move forward. -/
def recordEtag (source : String) (etag : Int64) (context : Context) : Context :=
  let reached := match context.etags.get? source with
    | some current => max current etag
    | none => etag
  { context.touch with etags := context.etags.insert source reached }

def ignoring (instanceIds : List String) : Context :=
  fresh.ignoreAll instanceIds

/-- The text that is kept of a vector: without transactional entries and ignored instances. -/
def keptText (ignored : List String) (text : String) : Except VectorFault String := do
  let stripped := (← ChangeVector.stripText text).getD text
  let (kept, _) ← ChangeVector.removeText ignored stripped
  return kept.getD stripped

def setVector (text : String) : Work Context Unit := do
  modify touch
  match keptText (← get).ignored text with
  | .ok kept => modify fun context => { context with vectorText := some kept }
  | .error fault => throw (.vector fault)

def accumulated (context : Context) : Except Fault ChangeVector :=
  match context.vectorText with
  | some text => ChangeVector.parse text
  | none => .ok .empty

def mergeVector (vector : ChangeVector) : Work Context Unit := do
  let current ← ofExcept (← get).accumulated
  setVector (current.merge vector).text

end Context

/-- Contexts that wait to be used again; the last one returned is the first one handed out. -/
structure ContextPool where
  idle : List Context
deriving Repr

namespace ContextPool

def empty : ContextPool := ⟨[]⟩

/-- No context is handed out with what its last user left in it. -/
def allocate (pool : ContextPool) : Context × ContextPool :=
  (.fresh, ⟨pool.idle.tail⟩)

def release (context : Context) (pool : ContextPool) : ContextPool :=
  ⟨context :: pool.idle⟩

end ContextPool

end DocumentReplication
