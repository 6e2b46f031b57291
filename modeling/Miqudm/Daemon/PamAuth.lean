/-
PAM authentication (`src/daemon/pam_auth.cpp`, `pam_auth.hpp`) over a model of libpam's handles.

libpam is what `PamEnv` answers: the n-th call returns the code `ret n` (0 is `PAM_SUCCESS`), and during it the modules
put the entries `modules n` into the handle's environment. A failing `pam_start` leaves no handle behind. A handle keeps
the `pam_conv` it was given as the pointer stored in it: null, or the number of a `PamUserData` object. The objects
alive are part of the state, so that a pointer kept by a handle may outlive what it points to.

A `PamAuth` object is passed to a method and comes back changed; the log shows the libpam calls and the births and
deaths of `PamUserData` objects. A `pam_start` shows the service it was given and the one that was wanted, which differ
in the fallback to `login`.
-/
import Miqudm.Core.Prog
import Miqudm.Common.Text

namespace Miqudm

open Miqudm.Core

/-! ## libpam -/

structure PamEnv where
  ret : ℕ → ℤ
  strerror : ℤ → Str
  modules : ℕ → List Str

def pamSuccess : ℤ := 0

structure Handle where
  id : ℕ
  user : Str
  service : Str
  /-- the `appdata_ptr` of the PAM_CONV item -/
  conv : Option ℕ
  env : List Str
deriving DecidableEq, Repr

structure Libpam where
  calls : ℕ := 0
  handles : List Handle := []
  nextHandle : ℕ := 0
  /-- the `PamUserData` objects alive, with the password each holds -/
  objects : List (ℕ × Str) := []
  nextObject : ℕ := 0
deriving DecidableEq, Repr

/-- the libpam functions that may run the conversation; authentication shows the password it would answer with -/
inductive PamFn where
  | authenticate (password : Option Str)
  | acctMgmt
  | establishCred
  | deleteCred
  | openSession
  | closeSession
deriving DecidableEq, Repr

inductive PamCall where
  | start (service user wanted : Str) (handle : Option ℕ)
  | setConv (handle data : ℕ) (ok : Bool)
  | run (fn : PamFn) (handle : ℕ) (ok : Bool)
  | putenv (handle : ℕ) (entry : Str) (ok : Bool)
  | getenvlist (handle : ℕ)
  | pamEnd (handle : ℕ)
  /-- the life of a `PamUserData` object -/
  | born (data : ℕ)
  | wiped (data : ℕ)
  | died (data : ℕ)
deriving DecidableEq, Repr

abbrev PamM (α : Type) : Type := Prog Libpam PamCall Empty α

/-- `pam_putenv` on an environment: `NAME=value` replaces by name, `NAME` deletes -/
def putEntry (env : List Str) (entry : Str) : List Str :=
  let name := fun e : Str => e.takeWhile (· ≠ '=')
  if '=' ∉ entry then env.filter fun e => name e ≠ entry
  else if env.any fun e => name e = name entry then env.map fun e => if name e = name entry then entry else e
  else env ++ [entry]

namespace Libpam

def handle? (p : Libpam) (h : ℕ) : Option Handle := p.handles.find? fun hd => hd.id = h

/-- change the handle `h`, and count the call -/
def onHandle (p : Libpam) (h : ℕ) (f : Handle → Handle) : Libpam :=
  { p with calls := p.calls + 1, handles := p.handles.map fun hd => if hd.id = h then f hd else hd }

/-- what `pam_conversation` answers a prompt with on the handle `h`: the password the appdata points to -/
def answer (p : Libpam) (h : ℕ) : Option Str := do
  let hd ← p.handle? h
  let d ← hd.conv
  (p.objects.lookup d).map cstr

end Libpam

section Calls

variable (E : PamEnv)

def pamStart (service user wanted : Str) : PamM (ℤ × Option ℕ) := do
  let p ← Prog.get
  let ret := E.ret p.calls
  if ret = pamSuccess then
    let h := p.nextHandle
    Prog.act (.start (cstr service) (cstr user) wanted (some h)) fun p => { p with
      calls := p.calls + 1
      nextHandle := h + 1
      handles := ⟨h, cstr user, cstr service, none, []⟩ :: p.handles }
    return (ret, some h)
  else
    Prog.act (.start (cstr service) (cstr user) wanted none) fun p => { p with calls := p.calls + 1 }
    return (ret, none)

/-- `pam_set_item(h, PAM_CONV, {pam_conversation, &data})` -/
def pamSetConv (h data : ℕ) : PamM ℤ := do
  let ret := E.ret (← Prog.get).calls
  Prog.act (.setConv h data (ret = pamSuccess)) fun p =>
    p.onHandle h fun hd => if ret = pamSuccess then { hd with conv := some data } else hd
  return ret

/-- a libpam function that works through the modules of the stack -/
def pamRun (fn : PamFn) (h : ℕ) : PamM ℤ := do
  let n := (← Prog.get).calls
  Prog.act (.run fn h (E.ret n = pamSuccess)) fun p =>
    p.onHandle h fun hd => { hd with env := (E.modules n).foldl putEntry hd.env }
  return E.ret n

def pamPutenv (h : ℕ) (entry : Str) : PamM ℤ := do
  let ret := E.ret (← Prog.get).calls
  Prog.act (.putenv h entry (ret = pamSuccess)) fun p =>
    p.onHandle h fun hd => if ret = pamSuccess then { hd with env := putEntry hd.env entry } else hd
  return ret

def pamGetenvlist (h : ℕ) : PamM (List Str) := do
  let p ← Prog.get
  Prog.act (.getenvlist h) fun p => { p with calls := p.calls + 1 }
  return ((p.handle? h).map Handle.env).getD []

def pamEnd (h : ℕ) : PamM Unit :=
  Prog.act (.pamEnd h) fun p => { p with calls := p.calls + 1, handles := p.handles.filter fun hd => hd.id ≠ h }

end Calls

/-! ## `PamUserData` objects -/

def newUserData (password : Str) : PamM ℕ := do
  let d := (← Prog.get).nextObject
  Prog.act (.born d) fun p => { p with nextObject := d + 1, objects := (d, password) :: p.objects }
  return d

/-- `explicit_bzero` and `clear` of the password -/
def wipeUserData (d : ℕ) : PamM Unit :=
  Prog.act (.wiped d) fun p => { p with objects := p.objects.map fun o => if o.1 = d then (d, []) else o }

def freeUserData (d : ℕ) : PamM Unit :=
  Prog.act (.died d) fun p => { p with objects := p.objects.filter fun o => o.1 ≠ d }

/-! ## `PamAuth` -/

structure PamAuth where
  pamHandle : Option ℕ := none
  username : Str := []
  serviceName : Str := []
  errorMessage : Str := []
  sessionOpened : Bool := false
  credentialsSet : Bool := false
deriving DecidableEq, Repr

namespace PamAuth

variable (E : PamEnv) (self : PamAuth)

/-- the shape of `check_account`, `establish_credentials` and `open_session`: run the modules, and note a success -/
def runStep (fn : PamFn) (noted : PamAuth) : PamM (Bool × PamAuth) :=
  match self.pamHandle with
  | none => return (false, self)
  | some h => do
    let ret ← pamRun E fn h
    if ret ≠ pamSuccess then return (false, { self with errorMessage := E.strerror ret })
    else return (true, noted)

def checkAccount : PamM (Bool × PamAuth) := self.runStep E .acctMgmt self

def establishCredentials : PamM (Bool × PamAuth) := self.runStep E .establishCred { self with credentialsSet := true }

def openSession : PamM (Bool × PamAuth) := self.runStep E .openSession { self with sessionOpened := true }

/-- the shape of `delete_credentials` and `close_session`: when there is something to undo, undo it and forget it -/
def undoStep (pending : Bool) (fn : PamFn) (cleared : PamAuth) : PamM (Bool × PamAuth) :=
  match self.pamHandle with
  | none => return (true, self)
  | some h =>
    if ¬ pending then return (true, self)
    else do
      let ret ← pamRun E fn h
      if ret ≠ pamSuccess then return (false, { cleared with errorMessage := E.strerror ret })
      else return (true, cleared)

def deleteCredentials : PamM (Bool × PamAuth) :=
  self.undoStep E self.credentialsSet .deleteCred { self with credentialsSet := false }

def closeSession : PamM (Bool × PamAuth) :=
  self.undoStep E self.sessionOpened .closeSession { self with sessionOpened := false }

/-- `if (m_session_opened) close_session();` -/
def closeOpened : PamM PamAuth := do
  if self.sessionOpened then return (← self.closeSession E).2 else return self

/-- `if (m_credentials_set) delete_credentials();` -/
def deleteSet : PamM PamAuth := do
  if self.credentialsSet then return (← self.deleteCredentials E).2 else return self

/-- the part of `end` under `if (m_pam_handle)` -/
def endHandle (h : ℕ) : PamM PamAuth := do
  let self ← self.closeOpened E
  let self ← self.deleteSet E
  pamEnd h
  return { self with pamHandle := none }

/-- `PamAuth::end`, which is also all the destructor does -/
def end_ : PamM PamAuth :=
  match self.pamHandle with
  | none => return { self with sessionOpened := false, credentialsSet := false }
  | some h => do
    let self ← self.endHandle E h
    return { self with sessionOpened := false, credentialsSet := false }

/-- `pam_start`, and again with the service `login` when the wanted one is not to be had -/
def startHandle (username serviceName : Str) : PamM (ℤ × Option ℕ) := do
  let (ret, h) ← pamStart E serviceName username serviceName
  if ret ≠ pamSuccess then pamStart E (lit "login") username serviceName else return (ret, h)

def start (username serviceName : Str) : PamM (Bool × PamAuth) := do
  let self ← self.end_ E
  let self := { self with username := username, serviceName := serviceName }
  let (ret, h) ← startHandle E username serviceName
  if ret ≠ pamSuccess then return (false, { self with errorMessage := E.strerror ret, pamHandle := none })
  else return (true, { self with pamHandle := h })

def authenticate (password : Str) : PamM (Bool × PamAuth) :=
  match self.pamHandle with
  | none => return (false, { self with errorMessage := lit "PAM handle not initialized" })
  | some h => do
    let userData ← newUserData password
    let ret ← pamSetConv E h userData
    if ret ≠ pamSuccess then
      freeUserData userData
      return (false, { self with errorMessage := E.strerror ret })
    else
      let ret ← pamRun E (.authenticate ((← Prog.get).answer h)) h
      Prog.when (password ≠ []) (wipeUserData userData)
      freeUserData userData
      if ret ≠ pamSuccess then return (false, { self with errorMessage := E.strerror ret })
      else return (true, self)

def getEnvironmentList : PamM (List Str) :=
  match self.pamHandle with
  | none => return []
  | some h => pamGetenvlist h

def setEnv (name value : Str) : PamM Bool :=
  match self.pamHandle with
  | none => return false
  | some h => do
    let ret ← pamPutenv E h (cstr (name ++ lit "=" ++ value))
    return ret = pamSuccess

/-- what a move leaves behind -/
def movedFrom : PamAuth := { pamHandle := none, sessionOpened := false, credentialsSet := false }

/-- `operator=(PamAuth&&)` from another object: the new `this`, and what is left of `other` -/
def moveAssign (other : PamAuth) : PamM (PamAuth × PamAuth) := do
  let _ ← self.end_ E
  return (other, movedFrom)

end PamAuth

end Miqudm
