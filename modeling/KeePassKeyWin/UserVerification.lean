import KeePassKeyWin.CredentialEncodings
import KeePassKeyWin.EventLogs

set_option autoImplicit false

/-!
# User verification in the sidecar

`perform_user_verification_2` with its fallback, inside `dispatch_operation`. An entrypoint and
the RPC pump messages, so another dispatch may begin while one is inside them and ends before
they return: the dispatches form a stack.
-/
namespace KeePassKeyWin.UserVerification
open ByteStrings CredentialEncodings EventLogs

abbrev Hresult := UInt32

def eNotimpl : Hresult := 0x80004001
def eAbort : Hresult := 0x80004004
def eFail : Hresult := 0x80004005

def Hresult.isErr (hr : Hresult) : Bool := 0x80000000 ≤ hr

inductive UvTier where
  | v2Stable
  | v2Experimental
  | v1
  deriving DecidableEq

def UvTier.ipcStr : UvTier → String
  | .v2Stable => "v2_stable"
  | .v2Experimental => "v2_experimental"
  | .v1 => "v1"

/-- The optional symbols of the library, and whether v1 is forced. -/
structure Exports where
  forceV1 : Bool
  stable : Bool
  experimental : Bool

structure WebauthnBindings where
  performUvV2 : Bool
  performUvTier : UvTier

/-- The library or a required symbol may be missing. -/
def bindings (library : Except String Exports) : Except String WebauthnBindings :=
  library.map fun e =>
    if e.forceV1 then ⟨false, .v1⟩
    else if e.stable then ⟨true, .v2Stable⟩
    else if e.experimental then ⟨true, .v2Experimental⟩
    else ⟨false, .v1⟩

def shouldFallbackToV1 (v2Hr : Hresult) : Bool := v2Hr == eNotimpl

def observeV2Result (cache : Bool) (hr : Hresult) : Bool := if shouldFallbackToV1 hr then true else cache

inductive Entrypoint where
  | v2
  | v1
  deriving DecidableEq

/-- What an entrypoint returns and writes: a buffer that is not null, and a length. -/
structure Outcome where
  hr : Hresult
  buffer : Option Bytes
  length : Option ℕ
  length_written : ∀ bytes, buffer = some bytes → length = some bytes.length

/-- A return, with the number and the bytes of the buffer written. -/
structure Return where
  entrypoint : Entrypoint
  hr : Hresult
  buffer : Option (ℕ × Bytes)

inductive Entry where
  | called (dispatch : ℕ) (entrypoint : Entrypoint)
  | returned (dispatch : ℕ) (r : Return)
  | performed (dispatch : ℕ) (hr : Hresult) (tier : UvTier)
  | freed (buffer : ℕ)
  | sent (dispatch : ℕ) (uvSignatureB64 uvBindingTier : String)
  | ended (dispatch : ℕ) (hr : Hresult)

inductive Place where
  | calling (entrypoint : Entrypoint)
  | rpc
  deriving DecidableEq

structure Frame where
  dispatch : ℕ
  place : Place
  cbUvResponse : ℕ
  pbUvResponse : Option ℕ

/-- `memory` holds every buffer ever written, by number; the innermost dispatch comes first. -/
structure World where
  library : Except String Exports
  v2Unimplemented : Bool
  memory : List Bytes
  begun : ℕ
  stack : List Frame
  log : List Entry

def World.start (library : Except String Exports) : World := ⟨library, false, [], 0, [], []⟩

def World.record (w : World) (entry : Entry) : World := { w with log := w.log ++ [entry] }

def World.call (w : World) (f : Frame) (entrypoint : Entrypoint) : World :=
  { w with
    stack := { f with place := .calling entrypoint } :: w.stack
    log := w.log ++ [.called f.dispatch entrypoint] }

def freeUserVerificationResponse (w : World) : Option ℕ → World
  | none => w
  | some buffer => w.record (.freed buffer)

/-- Up to the first entrypoint: v1 when there is no v2 or the latch is set. -/
def World.beginDispatch (w : World) : World :=
  let f : Frame := ⟨w.begun, .rpc, 0, none⟩
  let w := { w with begun := w.begun + 1 }
  match bindings w.library with
  | .error _ => w.record (.ended f.dispatch eFail)
  | .ok b =>
    if b.performUvV2 = false then w.call f .v1
    else if w.v2Unimplemented then w.call f .v1
    else w.call f .v2

/-- The bytes copied out of the buffer. -/
def World.uvSigBytes (w : World) (f : Frame) : Bytes :=
  match f.pbUvResponse with
  | some buffer => if 0 < f.cbUvResponse then (w.memory.getD buffer []).take f.cbUvResponse else []
  | none => []

/-- From the return of `perform_user_verification_2` to the RPC: copy, free, then look at the
result. -/
def World.complete (w : World) (f : Frame) (uvHr : Hresult) (uvTier : UvTier) : World :=
  let w := w.record (.performed f.dispatch uvHr uvTier)
  let uvSigBytes := w.uvSigBytes f
  let w := freeUserVerificationResponse w f.pbUvResponse
  if uvHr = eAbort then w.record (.ended f.dispatch uvHr)
  else if uvHr.isErr then w.record (.ended f.dispatch uvHr)
  else
    { w.record (.sent f.dispatch (toBase64String uvSigBytes) uvTier.ipcStr) with
      stack := { f with place := .rpc } :: w.stack }

/-- The entrypoint has returned: its buffer and length are in the locals. -/
def World.receive (w : World) (f : Frame) (entrypoint : Entrypoint) (o : Outcome) : World :=
  { w with
    memory := w.memory ++ o.buffer.toList
    log := w.log ++ [.returned f.dispatch ⟨entrypoint, o.hr, o.buffer.map (w.memory.length, ·)⟩] }

def Frame.receive (f : Frame) (buffers : ℕ) (o : Outcome) : Frame :=
  { f with
    cbUvResponse := o.length.getD f.cbUvResponse
    pbUvResponse := (o.buffer.map fun _ => buffers).or f.pbUvResponse }

/-- The fallback frees what v2 left and clears the locals, if it left a buffer. -/
def World.fallback (w : World) (f : Frame) : World :=
  match f.pbUvResponse with
  | some buffer =>
    (freeUserVerificationResponse w (some buffer)).call
      { f with pbUvResponse := none, cbUvResponse := 0 } .v1
  | none => w.call f .v1

def World.entrypointReturns (w : World) (b : WebauthnBindings) (f : Frame) (o : Outcome) :
    Entrypoint → World
  | .v1 => (w.receive f .v1 o).complete (f.receive w.memory.length o) o.hr .v1
  | .v2 =>
    let f' := f.receive w.memory.length o
    let w := w.receive f .v2 o
    let w := { w with v2Unimplemented := observeV2Result w.v2Unimplemented o.hr }
    if shouldFallbackToV1 o.hr then w.fallback f' else w.complete f' o.hr b.performUvTier

inductive Event where
  | beginDispatch
  | entrypointReturns (o : Outcome)
  | rpcReturns (hr : Hresult)

/-- Only the innermost dispatch goes on. -/
def World.perform (w : World) : Event → Option World
  | .beginDispatch => some w.beginDispatch
  | .entrypointReturns o =>
    match w.stack, bindings w.library with
    | f :: rest, .ok b =>
      match f.place with
      | .calling entrypoint => some ({ w with stack := rest }.entrypointReturns b f o entrypoint)
      | .rpc => none
    | _, _ => none
  | .rpcReturns hr =>
    match w.stack with
    | f :: rest =>
      if f.place = .rpc then some ({ w with stack := rest }.record (.ended f.dispatch hr)) else none
    | [] => none

def step (w : World) (event : Event) (w' : World) : Prop := w.perform event = some w'

end KeePassKeyWin.UserVerification
