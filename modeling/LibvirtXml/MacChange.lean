/-
# The MAC change test: `run_mac_change`

`src/tests/mac_change.py` changes the MAC address of a guest's first NIC from inside the guest
and checks that the guest's network comes back with it.  Every step is a call on the test's
infrastructure: the VM object, its NIC database `vm.virtnet`, two shell sessions into the guest,
and the helpers of `utils_net` and `utils_misc`, none of which is among the sources.  As with
`virsh`, the model leaves their answers to the world: a call returns a Python value or raises,
in the order the world lists its answers, and the world records every call with the answer it
got (`Guest.log`).  A world answers finitely many calls and past its list every call raises, so
every run of the model ends; a run of the test that ends reads finitely many answers and is the
model's run for the list of them.

Python's `%` on a pattern taken from the test's parameters, and `re.findall(p, s, re.I)`, are
library functions the model takes as parameters (`format`, `findall`): what is proved holds for
every formatter and every matcher.  Logging and `error.context` change nothing and are left out.

The locals that the `try` block may assign and the `finally` block reads (`connection_id`,
`mode`, `session`) live in the state (`Frame`), because an exception keeps the assignments made
before it; reading one that was never assigned raises `UnboundLocalError` (`bound`).

* Before the `try` block (`prepare`): the loop that picks the new MAC stops only on an address
  other than the old one, which the NIC database generated, the change command is the pattern
  formatted with it, and the bound the model gives the loop never decides its answer
  (`prepare_newMac`, from `macLoop_fuel` and `changeCommand_spec`).
* On Windows the `finally` block restarts the guest's network with `mode`, which the `try` block
  assigns only after the change command: when that command raises, the test never restarts the
  network, never puts the old MAC back, never closes its session, and ends with
  `UnboundLocalError` rather than the command's error (`windows_restore_skipped`).  When the
  command went through and the guest answers, the clean-up runs to its end whatever the rest of
  the `try` block raised, with the connection id and mode that block chose (`ModeChosen`);
  elsewhere the clean-up closes the current session on every run.  The session closed is the new
  one exactly when the `try` block's `wait_for_login` returned (`ReloggedSince`,
  `finally_cleans_up`).
* `get_drive_num` returns the first word character of `wmic`'s output that a colon follows, with
  the colon, and raises `TestError` exactly when there is none (`getDriveNum_ok`).
-/
import LibvirtXml.VmXml.CpuXml

namespace LibvirtXml

namespace MacChange

open VMXML VMCPUXML

/-! ## 1. Values, exceptions and the guest's world -/

/-- A Python value of the kinds the test's calls return and its `%` formats. -/
inductive PyVal where
  | str (s : String)
  | bool (b : Bool)
  | int (i : Int)
  | none
deriving Repr, DecidableEq

/-- The exceptions `run_mac_change` can end with. -/
inductive TestExc where
  /-- A call on the test's infrastructure raised; `exc` describes what. -/
  | raised (exc : String)
  /-- `params[key]` of a key the parameters do not hold. -/
  | keyError (key : String)
  /-- A method called on a value that does not have it, `None` among them. -/
  | attributeError
  /-- `%` on `None`, `int(None)`, or `re` given something that is not a string. -/
  | typeError
  /-- `int()` of a string that is not an integer. -/
  | valueError
  /-- `error.TestError` with its message. -/
  | testError (msg : String)
  /-- `error.TestFail` with its message. -/
  | testFail (msg : String)
  /-- `UnboundLocalError`: the local `name` is read before any assignment. -/
  | unboundLocal (name : String)
deriving Repr, DecidableEq

namespace PyVal

/-- `str(v)`, as `%s` prints it. -/
def toStr : PyVal → String
  | str s => s
  | bool b => if b then "True" else "False"
  | int i => toString i
  | none => "None"

/-- `bool(v)`, what `if v:` tests. -/
def truthy : PyVal → Bool
  | str s => !s.isEmpty
  | bool b => b
  | int i => i != 0
  | none => false

/-- `v != w`; a truth value compares as the integer `0` or `1`. -/
def pyNe : PyVal → PyVal → Bool
  | bool b, int i | int i, bool b => i != (if b then 1 else 0)
  | v, w => v != w

/-- `v` as the receiver of a string method: `AttributeError` unless it is a string. -/
def asStr : PyVal → Except TestExc String
  | str s => .ok s
  | _ => .error .attributeError

theorem asStr_eq_ok {v : PyVal} {s : String} (h : v.asStr = .ok s) : v = .str s := by
  cases v <;> cases h; rfl

/-- `v` as the string argument of `re`: `TypeError` unless it is a string. -/
def asText : PyVal → Except TestExc String
  | str s => .ok s
  | _ => .error .typeError

end PyVal

/-- The value of a nonempty string of decimal digits. -/
def digitsValue (ds : List Char) : Option Nat :=
  if ds ≠ [] ∧ ds.all Char.isDigit = true then
    some (ds.foldl (fun n c => 10 * n + (c.toNat - '0'.toNat)) 0)
  else none

/-- `int(s)` of a string: white space around an optional sign and decimal digits. -/
def parseInt (s : String) : Option Int :=
  match (pyStrip s).toList with
  | '-' :: ds => (digitsValue ds).map fun n => -(n : Int)
  | '+' :: ds => (digitsValue ds).map fun n => (n : Int)
  | ds => (digitsValue ds).map fun n => (n : Int)

/-- `int(v)`. -/
def pyInt : PyVal → Except TestExc Int
  | .str s =>
    match parseInt s with
    | some i => .ok i
    | none => .error .valueError
  | .bool b => .ok (if b then 1 else 0)
  | .int i => .ok i
  | .none => .error .typeError

/-- The guest sessions the test holds: `session_serial`, the first `session`, and the one it
logs in again with after the change. -/
inductive Session where
  | serial
  | login
  | relogin
deriving Repr, DecidableEq

/-- A call of the test on its infrastructure, as the world records it. -/
inductive Call where
  | verifyAlive
  | waitForSerialLogin (timeout : Int)
  | waitForLogin (timeout : Int)
  | getMacAddress (nic : Nat)
  | freeMacAddress (nic : Nat)
  | generateMacAddress (nic : Nat)
  | getLinuxIfname (session : Session) (mac : PyVal)
  | getWindowsNicAttribute (session : Session) (key : String) (value : PyVal) (target : String)
  | cmdOutput (session : Session) (cmd : String) (timeout : Int)
  | cmd (session : Session) (cmd : String)
  | sendline (session : Session) (cmd : String)
  | restartWindowsGuestNetwork (session : Session) (connectionId : PyVal) (mode : String)
  /-- `utils_misc.wait_for(session.is_responsive, 120, 20, 3)`. -/
  | waitForResponsive (session : Session)
  | isResponsive (session : Session)
  | close (session : Session)
  /-- `nic = vm.virtnet[0]; nic.mac = mac`. -/
  | setNicMac (mac : PyVal)
  /-- `vm.virtnet.update_db()`. -/
  | updateDb
deriving Repr, DecidableEq

/-- The world's answer to one call. -/
inductive Reply where
  | returns (v : PyVal)
  | raises (exc : String)
deriving Repr, DecidableEq

/-- The locals of `run_mac_change` that its `try` block may assign and its `finally` block
reads. -/
structure Frame where
  connectionId : Option PyVal
  mode : Option String
  session : Session
deriving Repr, DecidableEq

/-- The world the test runs in: the answers to the calls still to come, every call made with
the answer it got, and the test's frame. -/
structure Guest where
  replies : List Reply
  log : List (Call × Reply)
  frame : Frame

/-- A piece of the test: it may raise, keeping the world as it was at the raise. -/
abbrev GuestM := EStateM TestExc Guest

namespace Guest

/-- The answer the next call gets; past the world's list, every call raises. -/
def reply (g : Guest) : Reply := g.replies.headD (.raises "")

/-- The world after the call `c`, which got `g.reply`. -/
def next (g : Guest) (c : Call) : Guest :=
  { g with replies := g.replies.tail, log := g.log ++ [(c, g.reply)] }

@[simp] theorem next_log (g : Guest) (c : Call) : (g.next c).log = g.log ++ [(c, g.reply)] :=
  rfl
@[simp] theorem next_frame (g : Guest) (c : Call) : (g.next c).frame = g.frame := rfl
@[simp] theorem next_replies (g : Guest) (c : Call) : (g.next c).replies = g.replies.tail := rfl

/-- A call that returned read an answer of the world's list. -/
theorem length_pos_of_returns {g : Guest} {v : PyVal} (h : g.reply = .returns v) :
    0 < g.replies.length := by
  cases hg : g.replies with
  | nil => rw [reply, hg] at h; cases h
  | cons r rs => exact Nat.succ_pos _

end Guest

/-- Evaluate an expression that may raise. -/
def ofResult {α : Type} : Except TestExc α → GuestM α
  | .ok a => pure a
  | .error e => throw e

/-- Make a call: the world records it with its answer, which is returned or raised. -/
def call (c : Call) : GuestM PyVal := fun g =>
  match g.reply with
  | .returns v => .ok v (g.next c)
  | .raises exc => .error (.raised exc) (g.next c)

/-- The frame as it is now. -/
def getFrame : GuestM Frame := fun g => .ok g.frame g

/-- Assign locals of the frame. -/
def setFrame (f : Frame → Frame) : GuestM Unit := fun g => .ok () { g with frame := f g.frame }

/-- Read the local `name`: `UnboundLocalError` when it was never assigned. -/
def bound {α : Type} (name : String) : Option α → GuestM α
  | some a => pure a
  | none => throw (.unboundLocal name)

/-- Python's `try: body` / `finally: cleanUp`: the clean-up runs on every exit from the body, in
the world the body left, and an exception it raises replaces the body's outcome. -/
def tryFinally {α : Type} (body : GuestM α) (cleanUp : GuestM Unit) : GuestM α := fun g =>
  match body g with
  | .ok a g' =>
    match cleanUp g' with
    | .ok _ g'' => .ok a g''
    | .error e g'' => .error e g''
  | .error e g' =>
    match cleanUp g' with
    | .ok _ g'' => .error e g''
    | .error e' g'' => .error e' g''

/-- The test's parameters, a dictionary of strings. -/
abbrev Params := List (String × String)

/-- `params[key]`. -/
def getItem (params : Params) (key : String) : Except TestExc String :=
  match params.lookup key with
  | some v => .ok v
  | none => .error (.keyError key)

/-- `int(params.get("login_timeout", 360))`. -/
def loginTimeout (params : Params) : Except TestExc Int :=
  match params.lookup "login_timeout" with
  | some s => pyInt (.str s)
  | none => .ok 360

/-! ## 2. The test -/

section Test

variable (format : String → List PyVal → Except TestExc String)

/-- `pattern % args` for a pattern read with `params.get`: `None % …` raises `TypeError`. -/
def percent (pattern : Option String) (args : List PyVal) : GuestM String :=
  match pattern with
  | some p => ofResult (format p args)
  | none => throw .typeError

/-- `\w` of Python 2's `re` on a byte string: a letter, a digit or `_`. -/
def isWordChar (c : Char) : Bool := c.isAlphanum || c == '_'

/-- `re.search(r'(\w):', info, re.M)` and `.group()` of the match: the first word character
followed by a colon, with the colon. -/
def searchDrive : List Char → Option String
  | [] => none
  | c :: rest =>
    match rest with
    | ':' :: _ => if isWordChar c then some ⟨[c, ':']⟩ else searchDrive rest
    | _ => searchDrive rest

/-- `get_drive_num(session, path)`. -/
def getDriveNum (session : Session) (path : String) : GuestM String := do
  let cmd := "wmic datafile where \"path='" ++ path ++ "'\" get drive"
  let info ← ofResult (← call (.cmdOutput session cmd 360)).asStr
  match searchDrive (pyStrip info).toList with
  | some driveNum => pure driveNum
  | none => throw (.testError ("No path " ++ path ++ " in your guest"))

/-- `while True: vm.virtnet.free_mac_address(0); new_mac = vm.virtnet.generate_mac_address(0);
if old_mac != new_mac: break`, within `fuel` rounds. -/
def macLoop (oldMac : PyVal) : Nat → GuestM PyVal
  | 0 => throw (.raised "")
  | fuel + 1 => do
    let _ ← call (.freeMacAddress 0)
    let newMac ← call (.generateMacAddress 0)
    if oldMac.pyNe newMac then pure newMac else macLoop oldMac fuel

/-- From `vm = env.get_vm(params["main_vm"])` to the loop that picks the new MAC: the login
timeout, the old MAC and the new one.  The loop is given one round more than the world has
answers, which is never what stops it (`macLoop_fuel`). -/
def login (params : Params) (env : List String) : GuestM (Int × PyVal × PyVal) := do
  let vmName ← ofResult (getItem params "main_vm")
  -- `env.get_vm` gives `None` for a VM the environment does not hold: `None.verify_alive()`
  if vmName ∉ env then throw .attributeError
  let _ ← call .verifyAlive
  let timeout ← ofResult (loginTimeout params)
  let _ ← call (.waitForSerialLogin timeout)
  let _ ← call (.waitForLogin timeout)
  let oldMac ← call (.getMacAddress 0)
  let newMac ← macLoop oldMac ((← get).replies.length + 1)
  pure (timeout, oldMac, newMac)

/-- What the test learns of the NIC before the change; a local the branch taken does not assign
stays unbound. -/
structure Nic where
  interface : Option PyVal
  connectionId : Option PyVal
  nicIndex : Option PyVal
  pnpdeviceId : Option PyVal

/-- `r"\\devcon\\wxp_x86\\"`. -/
def devconPath : String := "\\\\devcon\\\\wxp_x86\\\\"

/-- The NIC's interface name on Linux; on Windows its connection id and index, and on Windows XP
its PnP device id, after copying `devcon.exe` from the CD drive. -/
def locateNic (osType osVariant : Option String) (oldMac : PyVal) : GuestM Nic := do
  if osType = some "linux" then
    let interface ← call (.getLinuxIfname .serial oldMac)
    pure ⟨some interface, none, none, none⟩
  else
    let connectionId ←
      call (.getWindowsNicAttribute .login "macaddress" oldMac "netconnectionid")
    let nicIndex ← call (.getWindowsNicAttribute .login "netconnectionid" connectionId "index")
    if osVariant = some "winxp" then
      let pnpdeviceId ←
        call (.getWindowsNicAttribute .login "netconnectionid" connectionId "pnpdeviceid")
      let cdDrive ← getDriveNum .login devconPath
      let _ ← call (.cmd .login ("xcopy " ++ cdDrive ++ "\\devcon\\wxp_x86\\devcon.exe c:\\ "))
      pure ⟨none, some connectionId, some nicIndex, some pnpdeviceId⟩
    else
      pure ⟨none, some connectionId, some nicIndex, none⟩

/-- `change_cmd = change_cmd_pattern % …`: with the interface on Linux, and elsewhere with the
NIC's index and the new MAC without its colons. -/
def changeCommand (pattern osType : Option String) (nic : Nic) (newMac : PyVal) :
    GuestM String := do
  if osType = some "linux" then
    let interface ← bound "interface" nic.interface
    percent format pattern [interface, interface, newMac, interface]
  else
    let index ← ofResult (pyInt (← bound "nic_index" nic.nicIndex))
    let mac ← ofResult newMac.asStr
    percent format pattern [.int index, .str (String.join (pySplit mac ':'))]

/-- What the test has computed when it enters its `try` block. -/
structure Ctx where
  timeout : Int
  oldMac : PyVal
  newMac : PyVal
  osType : Option String
  osVariant : Option String
  nic : Nic
  changeCmd : String

/-- The test up to its `try` block. -/
def prepare (params : Params) (env : List String) : GuestM Ctx := do
  let (timeout, oldMac, newMac) ← login params env
  let osType := params.lookup "os_type"
  let osVariant := params.lookup "os_variant"
  let nic ← locateNic osType osVariant oldMac
  let changeCmd ← changeCommand format (params.lookup "change_cmd") osType nic newMac
  pure ⟨timeout, oldMac, newMac, osType, osVariant, nic, changeCmd⟩

/-- The `finally` block. -/
def cleanUp (params : Params) (ctx : Ctx) : GuestM Unit := do
  if ctx.osType = some "windows" then
    let index ← ofResult (pyInt (← bound "nic_index" ctx.nic.nicIndex))
    let cleanCmd ← percent format (params.lookup "clean_cmd") [.int index]
    let _ ← call (.cmd .serial cleanCmd)
    let f ← getFrame
    let connectionId ← bound "connection_id" f.connectionId
    let mode ← bound "mode" f.mode
    let _ ← call (.restartWindowsGuestNetwork .serial connectionId mode)
    let _ ← call (.setNicMac ctx.oldMac)
    let _ ← call .updateDb
  let _ ← call (.close (← getFrame).session)

end Test

/-- The `try` block on Linux, after the change command: check that `ifconfig` shows the new MAC
and renew the lease. -/
def verifyLinux (ctx : Ctx) : GuestM Unit := do
  let _ ← call (.cmd .serial ("ifconfig | grep -i " ++ ctx.newMac.toStr))
  let interface ← bound "interface" ctx.nic.interface
  let _ ← call (.sendline .serial ("dhclient -r && dhclient " ++ interface.toStr))

/-- The `try` block elsewhere, after the change command: restart the guest's network (with
`devcon` on Windows XP, with `netsh` otherwise) and check that `ipconfig /all` shows the new MAC,
written with dashes. -/
def verifyWindows (findall : String → String → Bool) (ctx : Ctx) : GuestM Unit := do
  setFrame fun f => { f with mode := some "netsh" }
  if ctx.osVariant = some "winxp" then
    let pnpdeviceId ← ofResult (← bound "pnpdevice_id" ctx.nic.pnpdeviceId).asStr
    -- `str.split` never gives an empty list, so `[-1]` is its last piece
    setFrame fun f =>
      { f with connectionId := some (.str ((pySplit pnpdeviceId '&').getLastD "")) }
    setFrame fun f => { f with mode := some "devcon" }
  let f ← getFrame
  let connectionId ← bound "connection_id" f.connectionId
  let mode ← bound "mode" f.mode
  let _ ← call (.restartWindowsGuestNetwork .serial connectionId mode)
  let o ← call (.cmd .serial "ipconfig /all")
  let mac ← ofResult ctx.newMac.asStr
  let o ← ofResult o.asText
  if !findall (String.intercalate "-" (pySplit mac ':')) o then
    throw (.testFail "Guest mac change failed")

/-- The end of the `try` block: close the session, which the change should have cut, and log in
again. -/
def relogin (ctx : Ctx) : GuestM Unit := do
  let session := (← getFrame).session
  -- a session still responsive is only logged as a warning
  let _ ← call (.waitForResponsive session)
  let _ ← call (.close session)
  let _ ← call (.waitForLogin ctx.timeout)
  setFrame fun f => { f with session := .relogin }
  if !(← call (.isResponsive .relogin)).truthy then
    throw (.testFail "The new session is not responsive.")

/-- The `try` block: send the change command, check that the guest took the new MAC, and log in
again. -/
def changeMac (findall : String → String → Bool) (ctx : Ctx) : GuestM Unit := do
  let _ ← call (.cmd .serial ctx.changeCmd)
  if ctx.osType = some "linux" then verifyLinux ctx else verifyWindows findall ctx
  relogin ctx

/-- The locals as the `try` block finds them: `connection_id` as the NIC lookup left it, `mode`
not yet assigned, and the first login `session`. -/
def Ctx.tryFrame (ctx : Ctx) : Frame := ⟨ctx.nic.connectionId, none, .login⟩

/-- **`run_mac_change(test, params, env)`**. -/
def runMacChange (format : String → List PyVal → Except TestExc String)
    (findall : String → String → Bool) (params : Params) (env : List String) : GuestM Unit := do
  let ctx ← prepare format params env
  setFrame fun _ => ctx.tryFrame
  tryFinally (changeMac findall ctx) (cleanUp format params ctx)

/-! ## 3. Running the pieces -/

/-- The world a result was reached in. -/
def endState {α : Type} : EStateM.Result TestExc Guest α → Guest
  | .ok _ g => g
  | .error _ g => g

section Run

variable {α β : Type} {g g' : Guest}

theorem bind_of_ok {x : GuestM α} {f : α → GuestM β} {a : α} (h : x g = .ok a g') :
    (x >>= f) g = f a g' := by
  simp only [bind, EStateM.bind, h]

theorem bind_of_error {x : GuestM α} {f : α → GuestM β} {e : TestExc} (h : x g = .error e g') :
    (x >>= f) g = .error e g' := by
  simp only [bind, EStateM.bind, h]

/-- A run through a `>>=` that returned went through its first piece. -/
theorem bind_eq_ok {x : GuestM α} {f : α → GuestM β} {b : β} (h : (x >>= f) g = .ok b g') :
    ∃ a g₁, x g = .ok a g₁ ∧ f a g₁ = .ok b g' := by
  simp only [bind, EStateM.bind] at h
  split at h
  · exact ⟨_, _, ‹_›, h⟩
  · cases h

theorem call_of_returns {c : Call} {v : PyVal} (h : g.reply = .returns v) :
    call c g = .ok v (g.next c) := by
  simp only [call, h]

theorem call_of_raises {c : Call} {x : String} (h : g.reply = .raises x) :
    call c g = .error (.raised x) (g.next c) := by
  simp only [call, h]

@[simp] theorem pure_run (a : α) : (pure a : GuestM α) g = .ok a g := rfl
@[simp] theorem throw_run (e : TestExc) : (throw e : GuestM α) g = .error e g := rfl
@[simp] theorem getFrame_run : getFrame g = .ok g.frame g := rfl
@[simp] theorem setFrame_run (f : Frame → Frame) : setFrame f g = .ok () { g with frame := f g.frame } :=
  rfl
@[simp] theorem bound_some (name : String) (a : α) : bound name (some a) g = .ok a g := rfl
@[simp] theorem bound_none (name : String) : (bound name none : GuestM α) g = .error (.unboundLocal name) g :=
  rfl
@[simp] theorem ofResult_ok (a : α) : ofResult (.ok a) g = .ok a g := rfl
@[simp] theorem ofResult_error (e : TestExc) : (ofResult (.error e) : GuestM α) g = .error e g := rfl
@[simp] theorem pure_bind_run (a : α) (f : α → GuestM β) : (pure a >>= f) g = f a g := rfl
@[simp] theorem throw_bind_run (e : TestExc) (f : α → GuestM β) :
    (throw e >>= f) g = .error e g := rfl
@[simp] theorem getFrame_bind_run (f : Frame → GuestM β) : (getFrame >>= f) g = f g.frame g := rfl
@[simp] theorem setFrame_bind_run (h : Frame → Frame) (f : Unit → GuestM β) :
    (setFrame h >>= f) g = f () { g with frame := h g.frame } := rfl
@[simp] theorem bound_some_bind (name : String) (a : α) (f : α → GuestM β) :
    (bound name (some a) >>= f) g = f a g := rfl
@[simp] theorem bound_none_bind (name : String) (f : α → GuestM β) :
    (bound name none >>= f) g = .error (.unboundLocal name) g := rfl
@[simp] theorem ofResult_ok_bind (a : α) (f : α → GuestM β) : (ofResult (.ok a) >>= f) g = f a g :=
  rfl
@[simp] theorem ofResult_error_bind (e : TestExc) (f : α → GuestM β) :
    (ofResult (.error e) >>= f) g = .error e g := rfl

/-- `percent` on a pattern the parameters hold is the formatter's result. -/
@[simp] theorem percent_some (format : String → List PyVal → Except TestExc String) (p : String)
    (args : List PyVal) : percent format (some p) args = ofResult (format p args) := rfl

@[simp] theorem percent_none (format : String → List PyVal → Except TestExc String)
    (args : List PyVal) : percent format none args = throw .typeError := rfl

theorem ofResult_eq_ok {r : Except TestExc α} {a : α} (h : ofResult r g = .ok a g') :
    r = .ok a ∧ g' = g := by
  cases r <;> cases h; exact ⟨rfl, rfl⟩

theorem bound_eq_ok {name : String} {o : Option α} {a : α} (h : bound name o g = .ok a g') :
    o = some a ∧ g' = g := by
  cases o <;> cases h; exact ⟨rfl, rfl⟩

/-- A `%` that returned had a pattern, and the formatter gave its result. -/
theorem percent_eq_ok {format : String → List PyVal → Except TestExc String}
    {pattern : Option String} {args : List PyVal} {c : String}
    (h : percent format pattern args g = .ok c g') :
    ∃ p, pattern = some p ∧ format p args = .ok c ∧ g' = g := by
  cases pattern with
  | none => cases h
  | some p => exact ⟨p, rfl, ofResult_eq_ok h⟩

/-- A last call is made whatever it answers. -/
theorem endState_call_pure (c : Call) (a : α) :
    endState ((call c >>= fun _ => pure a) g) = g.next c := by
  simp only [bind, EStateM.bind, call]
  cases g.reply <;> rfl

/-- **Python's `finally`**: the clean-up runs in the world the body left, and the run ends in the
world the clean-up leaves. -/
theorem endState_tryFinally (body : GuestM α) (cleanUp : GuestM Unit) :
    endState (tryFinally body cleanUp g) = endState (cleanUp (endState (body g))) := by
  unfold tryFinally
  split <;> split <;> simp_all [endState]

end Run

/-- `x` keeps `P` of the world, whether it returns or raises. -/
def Preserves {α : Type} (P : Guest → Prop) (x : GuestM α) : Prop :=
  ∀ g, P g → P (endState (x g))

section Preserves

variable {α β : Type} {P : Guest → Prop}

theorem endState_bind (x : GuestM α) (f : α → GuestM β) (g : Guest) :
    endState ((x >>= f) g) =
      match x g with
      | .ok a g' => endState (f a g')
      | .error _ g' => g' := by
  simp only [bind, EStateM.bind]
  cases x g <;> rfl

theorem Preserves.bind {x : GuestM α} {f : α → GuestM β} (hx : Preserves P x)
    (hf : ∀ a, Preserves P (f a)) : Preserves P (x >>= f) := by
  intro g hg
  have h := hx g hg
  rw [endState_bind]
  split <;> rename_i hr <;> rw [hr] at h
  · exact hf _ _ h
  · exact h

theorem Preserves.of_ok {x : GuestM α} (hx : Preserves P x) {g g' : Guest} {a : α}
    (h : x g = .ok a g') (hg : P g) : P g' := by
  simpa [h, endState] using hx g hg

theorem preserves_call_of {c : Call} (hP : ∀ g, P g → P (g.next c)) : Preserves P (call c) := by
  intro g hg
  unfold call
  split <;> exact hP g hg

theorem preserves_call (hP : ∀ g c, P g → P (g.next c)) (c : Call) : Preserves P (call c) :=
  preserves_call_of fun g => hP g c

theorem preserves_pure (a : α) : Preserves P (pure a) := fun _ hg => hg

theorem preserves_throw (e : TestExc) : Preserves P (throw e : GuestM α) := fun _ hg => hg

theorem preserves_getFrame : Preserves P getFrame := fun _ hg => hg

theorem preserves_get : Preserves P (get : GuestM Guest) := fun _ hg => hg

theorem preserves_bound (name : String) (o : Option α) : Preserves P (bound name o) := by
  cases o <;> exact fun _ hg => hg

theorem preserves_ofResult (r : Except TestExc α) : Preserves P (ofResult r) := by
  cases r <;> exact fun _ hg => hg

theorem preserves_setFrame {f : Frame → Frame} (h : ∀ g, P g → P { g with frame := f g.frame }) :
    Preserves P (setFrame f) := h

theorem preserves_ite {c : Prop} [Decidable c] {x y : GuestM α} (hx : Preserves P x)
    (hy : Preserves P y) : Preserves P (if c then x else y) := by
  split <;> assumption

end Preserves

/-- What the log held stays at its head: every call appends. -/
theorem prefix_next (l : List (Call × Reply)) (g : Guest) (c : Call) (h : l <+: g.log) :
    l <+: (g.next c).log := by
  rw [Guest.next_log]
  exact h.trans (List.prefix_append _ _)

/-- A property of the world that no call and no assignment of a local breaks. -/
structure Stable (P : Guest → Prop) : Prop where
  next : ∀ g c, P g → P (g.next c)
  frame : ∀ g f, P g → P { g with frame := f }

/-- What the log held stays at its head. -/
theorem stable_logHead (l : List (Call × Reply)) : Stable fun g => l <+: g.log :=
  ⟨prefix_next l, fun _ _ h => h⟩

section Stable

variable {P : Guest → Prop} (hP : Stable P)
include hP

/-- **Every piece of the test but the loop only calls and assigns locals**, so it keeps every
stable property of the world. -/
theorem Stable.preserves_pieces :
    (∀ osType osVariant m, Preserves P (locateNic osType osVariant m)) ∧
      (∀ format pattern osType nic m, Preserves P (changeCommand format pattern osType nic m)) ∧
      (∀ ctx, Preserves P (verifyLinux ctx)) ∧ (∀ findall ctx, Preserves P (verifyWindows findall ctx)) ∧
      (∀ ctx, Preserves P (relogin ctx)) ∧ ∀ format params ctx, Preserves P (cleanUp format params ctx) := by
  refine ⟨fun _ _ _ => ?_, fun _ _ _ _ _ => ?_, fun _ => ?_, fun _ _ => ?_, fun _ => ?_,
      fun _ _ _ => ?_⟩ <;>
    simp only [locateNic, getDriveNum, changeCommand, percent, verifyLinux, verifyWindows, relogin,
      cleanUp] <;>
    repeat' first
      | with_reducible first
        | refine Preserves.bind ?_ fun _ => ?_
        | refine preserves_ite ?_ ?_
        | exact preserves_call hP.next _
        | exact preserves_pure _
        | exact preserves_throw _
        | exact preserves_ofResult _
        | exact preserves_bound _ _
        | exact preserves_getFrame
        | exact preserves_setFrame fun g => hP.frame g _
      | split

end Stable

/-! ## 4. The loop that picks the new MAC -/

/-- **The loop stops only on a new address**: whatever it returns differs from the old MAC. -/
theorem macLoop_ne (oldMac : PyVal) : ∀ (fuel : Nat) {g g' : Guest} {m : PyVal},
    macLoop oldMac fuel g = .ok m g' → oldMac.pyNe m = true
  | 0, _, _, _, h => by cases h
  | fuel + 1, g, g', m, h => by
    simp only [macLoop] at h
    obtain ⟨_, g₁, -, h⟩ := bind_eq_ok h
    obtain ⟨v, g₂, -, h⟩ := bind_eq_ok h
    split_ifs at h with hne
    · cases h; exact hne
    · exact macLoop_ne oldMac fuel h

/-- **The loop's bound never decides its answer**: with more rounds than the world has answers
left, any two bounds give the same run, because each round reads two answers and past them the
call raises. -/
theorem macLoop_fuel (oldMac : PyVal) : ∀ {n m : Nat} {g : Guest},
    g.replies.length < n → g.replies.length < m → macLoop oldMac n g = macLoop oldMac m g
  | 0, _, _, h, _ => absurd h (Nat.not_lt_zero _)
  | _ + 1, 0, _, _, h => absurd h (Nat.not_lt_zero _)
  | n + 1, m + 1, g, hn, hm => by
    simp only [macLoop]
    cases hr : g.reply with
    | raises x => simp only [bind_of_error (call_of_raises hr)]
    | returns v =>
      have hlen := Guest.length_pos_of_returns hr
      rw [bind_of_ok (call_of_returns hr), bind_of_ok (call_of_returns hr)]
      cases hr₁ : (g.next (.freeMacAddress 0)).reply with
      | raises x => simp only [bind_of_error (call_of_raises hr₁)]
      | returns w =>
        rw [bind_of_ok (call_of_returns hr₁), bind_of_ok (call_of_returns hr₁)]
        have hlen₁ := Guest.length_pos_of_returns hr₁
        simp only [Guest.next_replies, List.length_tail] at hlen₁ ⊢
        split_ifs
        · rfl
        · exact macLoop_fuel oldMac (by simp only [Guest.next_replies, List.length_tail]; omega)
            (by simp only [Guest.next_replies, List.length_tail]; omega)

/-- The address the loop returns is one `generate_mac_address` returned. -/
theorem macLoop_generated (oldMac : PyVal) : ∀ (fuel : Nat) {g g' : Guest} {m : PyVal},
    macLoop oldMac fuel g = .ok m g' → (.generateMacAddress 0, .returns m) ∈ g'.log
  | 0, _, _, _, h => by cases h
  | fuel + 1, g, g', m, h => by
    simp only [macLoop] at h
    obtain ⟨_, g₁, -, h⟩ := bind_eq_ok h
    obtain ⟨v, g₂, hv, h⟩ := bind_eq_ok h
    split_ifs at h
    · simp only [pure_run, EStateM.Result.ok.injEq] at h
      obtain ⟨rfl, rfl⟩ := h
      unfold call at hv
      split at hv <;> simp only [EStateM.Result.ok.injEq, reduceCtorEq] at hv
      obtain ⟨rfl, rfl⟩ := hv
      simp [*]
    · exact macLoop_generated oldMac fuel h

/-- The login part of the test ends on a new MAC that the NIC database generated. -/
theorem login_newMac {params : Params} {env : List String} {g g' : Guest} {t : Int}
    {o n : PyVal} (h : login params env g = .ok (t, o, n) g') :
    o.pyNe n = true ∧ (.generateMacAddress 0, .returns n) ∈ g'.log := by
  simp only [login] at h
  obtain ⟨_, _, -, h⟩ := bind_eq_ok h
  split_ifs at h
  · iterate 7 obtain ⟨_, _, -, h⟩ := bind_eq_ok h
    obtain ⟨n', _, hm, h⟩ := bind_eq_ok h
    simp only [pure_run, EStateM.Result.ok.injEq, Prod.mk.injEq] at h
    obtain ⟨⟨-, rfl, rfl⟩, rfl⟩ := h
    exact ⟨macLoop_ne _ _ hm, macLoop_generated _ _ hm⟩
  · -- a VM the environment does not hold
    obtain ⟨_, _, h', -⟩ := bind_eq_ok h
    cases h'

/-! ## 5. Entering the `try` block -/

/-- The parameters of a Windows run (the patterns stand for a configuration's; the formatter is a
parameter of the model). -/
def windowsParams : Params :=
  [("main_vm", "vm1"), ("os_type", "windows"), ("change_cmd", "reg add %s %s"),
    ("clean_cmd", "reg delete %s")]

/-- The parameters of a Linux run. -/
def linuxParams : Params :=
  [("main_vm", "vm1"), ("os_type", "linux"), ("change_cmd", "ifconfig %s hw ether %s")]

/-- A guest that answers the VM's check, the two logins and the old MAC, draws the old MAC again in
the loop's first round and a new one in its second, then gives `nicAnswers` to the NIC lookups and
`rest` to the calls after them. -/
def guestWith (nicAnswers rest : List Reply) : Guest :=
  ⟨[.returns (.bool true), .returns (.str "serial"), .returns (.str "session"),
      .returns (.str "52:54:00:12:34:56"), .returns .none, .returns (.str "52:54:00:12:34:56"),
      .returns .none, .returns (.str "52:54:00:ab:cd:ef")] ++ nicAnswers ++ rest, [],
    ⟨none, none, .login⟩⟩

/-- Off Linux, the NIC's connection id and index are bound when its lookup returns. -/
theorem locateNic_windows {osType osVariant : Option String} {m : PyVal} {g g' : Guest}
    {nic : Nic} (h : locateNic osType osVariant m g = .ok nic g') (hl : osType ≠ some "linux") :
    ∃ c n, nic.connectionId = some c ∧ nic.nicIndex = some n := by
  simp only [locateNic, if_neg hl] at h
  obtain ⟨c, _, -, h⟩ := bind_eq_ok h
  obtain ⟨n, _, -, h⟩ := bind_eq_ok h
  split_ifs at h
  · iterate 3 obtain ⟨_, _, -, h⟩ := bind_eq_ok h
    simp only [pure_run, EStateM.Result.ok.injEq] at h
    exact ⟨c, n, by rw [← h.1], by rw [← h.1]⟩
  · simp only [pure_run, EStateM.Result.ok.injEq] at h
    exact ⟨c, n, by rw [← h.1], by rw [← h.1]⟩

/-- **The change command a run built**: on Linux the pattern formatted with the interface, the
interface, the new MAC and the interface; elsewhere with `int(nic_index)` and the new MAC, which
is a string, without its colons. -/
theorem changeCommand_spec {format : String → List PyVal → Except TestExc String}
    {pattern osType : Option String} {nic : Nic} {m : PyVal} {g g' : Guest} {c : String}
    (h : changeCommand format pattern osType nic m g = .ok c g') :
    (osType = some "linux" → ∃ p iface, pattern = some p ∧ nic.interface = some iface ∧
      format p [iface, iface, m, iface] = .ok c) ∧
    (osType ≠ some "linux" → ∃ p n i mac, pattern = some p ∧ nic.nicIndex = some n ∧
      pyInt n = .ok i ∧ m = .str mac ∧ format p [.int i, .str (String.join (pySplit mac ':'))] = .ok c) := by
  unfold changeCommand at h
  refine ⟨fun hl => ?_, fun hl => ?_⟩
  · rw [if_pos hl] at h
    obtain ⟨iface, _, hb, hc⟩ := bind_eq_ok h
    obtain ⟨hi, rfl⟩ := bound_eq_ok hb
    obtain ⟨p, hp, hf, -⟩ := percent_eq_ok hc
    exact ⟨p, iface, hp, hi, hf⟩
  · rw [if_neg hl] at h
    obtain ⟨n, _, hb, h₁⟩ := bind_eq_ok h
    obtain ⟨hn, rfl⟩ := bound_eq_ok hb
    obtain ⟨i, _, hi₀, h₂⟩ := bind_eq_ok h₁
    obtain ⟨hi, rfl⟩ := ofResult_eq_ok hi₀
    obtain ⟨mac, _, hm₀, hc⟩ := bind_eq_ok h₂
    obtain ⟨hm, rfl⟩ := ofResult_eq_ok hm₀
    obtain ⟨p, hp, hf, -⟩ := percent_eq_ok hc
    exact ⟨p, n, i, mac, hp, hn, hi, PyVal.asStr_eq_ok hm, hf⟩

/-- What the test has when it enters its `try` block: the OS it read, a new MAC that differs from
the old one and that the NIC database generated, off Linux the NIC's connection id, and the
change command formatted from the new MAC. -/
theorem prepare_spec {format : String → List PyVal → Except TestExc String} {params : Params}
    {env : List String} {g₀ g : Guest} {ctx : Ctx} (hp : prepare format params env g₀ = .ok ctx g) :
    ctx.osType = params.lookup "os_type" ∧ ctx.oldMac.pyNe ctx.newMac = true ∧
      (.generateMacAddress 0, .returns ctx.newMac) ∈ g.log ∧
      (ctx.osType ≠ some "linux" → ∃ c, ctx.nic.connectionId = some c) ∧
      (ctx.osType = some "linux" → ∃ p iface, params.lookup "change_cmd" = some p ∧
        ctx.nic.interface = some iface ∧ format p [iface, iface, ctx.newMac, iface] = .ok ctx.changeCmd) ∧
      (ctx.osType ≠ some "linux" → ∃ p n i mac, params.lookup "change_cmd" = some p ∧
        ctx.nic.nicIndex = some n ∧ pyInt n = .ok i ∧ ctx.newMac = .str mac ∧
        format p [.int i, .str (String.join (pySplit mac ':'))] = .ok ctx.changeCmd) := by
  simp only [prepare] at hp
  obtain ⟨⟨t, o, n⟩, g₁, hl, h⟩ := bind_eq_ok hp
  obtain ⟨nic, g₂, hnic, h⟩ := bind_eq_ok h
  obtain ⟨cmd, g₃, hcmd, h⟩ := bind_eq_ok h
  simp only [pure_run, EStateM.Result.ok.injEq] at h
  obtain ⟨rfl, rfl⟩ := h
  obtain ⟨hne, hgen⟩ := login_newMac hl
  have hpieces := (stable_logHead g₁.log).preserves_pieces
  have h₂ := (hpieces.1 _ _ _).of_ok hnic (List.prefix_refl _)
  have h₃ := (hpieces.2.1 _ _ _ _ _).of_ok hcmd h₂
  refine ⟨rfl, hne, h₃.subset hgen, fun hw => ?_, (changeCommand_spec hcmd).1,
    (changeCommand_spec hcmd).2⟩
  obtain ⟨c, -, hc, -⟩ := locateNic_windows hnic hw
  exact ⟨c, hc⟩

/-- **The change command carries a new MAC**: on every run that reaches the `try` block, the MAC
the test changes to differs from the old one, as Python's `!=` compares them, it is one that
`generate_mac_address` returned, and the change command is the pattern formatted with it (with
the interface on Linux; elsewhere with the NIC's index and the MAC without its colons).  The
bound the model gives the loop never decides its answer: any two bounds above the number of
answers the world has left give the same run. -/
theorem prepare_newMac {format : String → List PyVal → Except TestExc String} {params : Params}
    {env : List String} {g₀ g : Guest} {ctx : Ctx} (hp : prepare format params env g₀ = .ok ctx g) :
    ctx.oldMac.pyNe ctx.newMac = true ∧ (.generateMacAddress 0, .returns ctx.newMac) ∈ g.log ∧
      (ctx.osType = some "linux" → ∃ p iface, params.lookup "change_cmd" = some p ∧
        ctx.nic.interface = some iface ∧ format p [iface, iface, ctx.newMac, iface] = .ok ctx.changeCmd) ∧
      (ctx.osType ≠ some "linux" → ∃ p n i mac, params.lookup "change_cmd" = some p ∧
        ctx.nic.nicIndex = some n ∧ pyInt n = .ok i ∧ ctx.newMac = .str mac ∧
        format p [.int i, .str (String.join (pySplit mac ':'))] = .ok ctx.changeCmd) ∧
      ∀ (n m : Nat) (g' : Guest), g'.replies.length < n → g'.replies.length < m →
        macLoop ctx.oldMac n g' = macLoop ctx.oldMac m g' :=
  have h := prepare_spec hp
  ⟨h.2.1, h.2.2.1, h.2.2.2.2.1, h.2.2.2.2.2, fun _ _ _ => macLoop_fuel ctx.oldMac⟩

theorem prepare_newMac_second_round :
    ∃ ctx g, prepare (fun p _ => .ok p) linuxParams ["vm1"]
        (guestWith [.returns (.str "eth0")] []) = .ok ctx g ∧
      ctx.newMac = .str "52:54:00:ab:cd:ef" ∧ ctx.changeCmd = "ifconfig %s hw ether %s" ∧
      ctx.oldMac.pyNe ctx.newMac = true ∧ ∃ p iface, linuxParams.lookup "change_cmd" = some p ∧
        ctx.nic.interface = some iface ∧
        (fun p _ => .ok p : String → List PyVal → Except TestExc String) p
          [iface, iface, ctx.newMac, iface] = .ok ctx.changeCmd := by
  obtain ⟨hne, -, hlin, -⟩ := @prepare_newMac (fun p _ => .ok p) linuxParams ["vm1"]
    (guestWith [.returns (.str "eth0")] []) _ _ rfl
  exact ⟨_, _, rfl, rfl, rfl, hne, hlin rfl⟩

/-- Once `prepare` has returned, the test is its `try` block and its `finally` block. -/
theorem runMacChange_of_prepare {format : String → List PyVal → Except TestExc String}
    {findall : String → String → Bool} {params : Params} {env : List String} {g₀ g : Guest}
    {ctx : Ctx} (hp : prepare format params env g₀ = .ok ctx g) :
    runMacChange format findall params env g₀ =
      tryFinally (changeMac findall ctx) (cleanUp format params ctx)
        { g with frame := ctx.tryFrame } := by
  simp only [runMacChange, bind_of_ok hp, setFrame_bind_run]

/-! ## 6. When the change command raises -/

/-- **On Windows a failed change command loses the clean-up**: `mode` is bound only after that
command, so when it raises the `finally` block stops at the latest when it reads `mode` to
restart the guest's network.  The test makes at most one more call, the clean command; it never
restarts the network, never puts the old MAC back in the NIC database, and never closes its
session; and when the clean command goes through it ends with `UnboundLocalError` rather than
the change command's error. -/
theorem windows_restore_skipped {format : String → List PyVal → Except TestExc String}
    {findall : String → String → Bool} {params : Params} {env : List String} {g₀ g : Guest}
    {ctx : Ctx} {x : String} (hw : params.lookup "os_type" = some "windows")
    (hp : prepare format params env g₀ = .ok ctx g) (hx : g.reply = .raises x) :
    ∃ e g', runMacChange format findall params env g₀ = .error e g' ∧
      (g'.log = g.log ++ [(.cmd .serial ctx.changeCmd, .raises x)] ∨
        ∃ c r, g'.log = g.log ++ [(.cmd .serial ctx.changeCmd, .raises x), (.cmd .serial c, r)] ∧
          ∀ v, r = .returns v → e = .unboundLocal "mode") := by
  obtain ⟨hos, -, -, hcon, -, hcmd⟩ := prepare_spec hp
  rw [hw] at hos
  have hl : ctx.osType ≠ some "linux" := by rw [hos]; decide
  obtain ⟨cid, hcid⟩ := hcon hl
  obtain ⟨-, n, i, -, -, hn, hi, -⟩ := hcmd hl
  have hx₁ : ({ g with frame := ctx.tryFrame } : Guest).reply = .raises x := hx
  rw [runMacChange_of_prepare hp]
  simp only [tryFinally, changeMac, bind_of_error (call_of_raises hx₁), cleanUp, hos, if_true,
    hn, hi, bound_some_bind, ofResult_ok_bind]
  set g₁ := ({ g with frame := ctx.tryFrame } : Guest).next (.cmd .serial ctx.changeCmd)
  have hlog : g₁.log = g.log ++ [(.cmd .serial ctx.changeCmd, .raises x)] := by
    rw [Guest.next_log, hx₁]
  cases hpat : params.lookup "clean_cmd" with
  | none => exact ⟨_, _, rfl, .inl hlog⟩
  | some p =>
    cases hf : format p [.int i] with
    | error e => exact ⟨e, _, by simp only [percent_some, hf, ofResult_error_bind], .inl hlog⟩
    | ok c =>
      simp only [percent_some, hf, ofResult_ok_bind]
      -- the clean command is the one further call
      have hlog₂ : (g₁.next (.cmd .serial c)).log =
          g.log ++ [(.cmd .serial ctx.changeCmd, .raises x), (.cmd .serial c, g₁.reply)] := by
        rw [Guest.next_log, hlog, List.append_assoc]
        rfl
      cases hr : g₁.reply with
      | raises y =>
        rw [hr] at hlog₂
        exact ⟨_, _, by rw [bind_of_error (call_of_raises hr)],
          .inr ⟨c, _, hlog₂, fun _ h => (by cases h)⟩⟩
      | returns v =>
        rw [hr] at hlog₂
        exact ⟨.unboundLocal "mode", _,
          by rw [bind_of_ok (call_of_returns hr)]; simp [g₁, Ctx.tryFrame, hcid],
          .inr ⟨c, _, hlog₂, fun _ _ => rfl⟩⟩

theorem windows_restore_skipped_vm1 :
    ∃ ctx g, prepare (fun p _ => .ok p) windowsParams ["vm1"] (guestWith
          [.returns (.str "Local Area Connection"), .returns (.str "7")]
          [.raises "exit status 1", .returns (.str "")]) = .ok ctx g ∧
      g.reply = .raises "exit status 1" ∧
      ∃ e g', runMacChange (fun p _ => .ok p) (fun _ _ => true) windowsParams ["vm1"] (guestWith
          [.returns (.str "Local Area Connection"), .returns (.str "7")]
          [.raises "exit status 1", .returns (.str "")]) = .error e g' ∧
        (g'.log = g.log ++ [(.cmd .serial ctx.changeCmd, .raises "exit status 1")] ∨
          ∃ c r, g'.log = g.log ++ [(.cmd .serial ctx.changeCmd, .raises "exit status 1"),
            (.cmd .serial c, r)] ∧ ∀ v, r = .returns v → e = .unboundLocal "mode") :=
  ⟨_, _, rfl, rfl, windows_restore_skipped rfl rfl rfl⟩

/-! ## 7. The `finally` block when the change went through -/

/-- The `connection_id` and `mode` the Windows branch of the `try` block leaves: on Windows XP,
when the PnP device id is a string, its last `&`-piece and `devcon`; otherwise the connection id
the NIC lookup found and `netsh` (a PnP device id that is no string raises at its `split`, after
`mode = "netsh"`). -/
def ModeChosen (ctx : Ctx) (f : Frame) : Prop :=
  (f.mode = some "devcon" ∧ ∃ pnp, ctx.osVariant = some "winxp" ∧
      ctx.nic.pnpdeviceId = some (.str pnp) ∧
      f.connectionId = some (.str ((pySplit pnp '&').getLastD ""))) ∨
    (f.mode = some "netsh" ∧ f.connectionId = ctx.nic.connectionId ∧
      ∀ pnp, ctx.osVariant = some "winxp" → ctx.nic.pnpdeviceId ≠ some (.str pnp))

/-- The Windows branch assigns `connection_id` and `mode` before anything it does can raise,
returning or raising it ends with the values `ModeChosen` names, and the re-login after it keeps
them. -/
theorem modeChosen_pieces (findall : String → String → Bool) (ctx : Ctx) :
    (∀ g, g.frame.connectionId = ctx.nic.connectionId →
      ModeChosen ctx (endState (verifyWindows findall ctx g)).frame) ∧
      Preserves (fun g => ModeChosen ctx g.frame) (relogin ctx) := by
  refine ⟨fun g hc => ?_, ?_⟩
  on_goal 2 => simp only [relogin]
  on_goal 1 =>
    simp only [verifyWindows, setFrame_bind_run]
    split_ifs with hxp
    on_goal 2 =>
      refine (show Preserves (fun g => ModeChosen ctx g.frame) _ from ?_) _
        (Or.inr ⟨rfl, hc, fun _ h => absurd h hxp⟩)
    -- on Windows XP the assignments depend on the PnP device id
    rcases hpnp : ctx.nic.pnpdeviceId with _ | ⟨pnp | _ | _ | _⟩
    on_goal 2 =>
      simp only [bound_some_bind, PyVal.asStr, ofResult_ok_bind, setFrame_bind_run]
      refine (show Preserves (fun g => ModeChosen ctx g.frame) _ from ?_) _
        (Or.inl ⟨rfl, pnp, hxp, hpnp, rfl⟩)
    all_goals try exact Or.inr ⟨rfl, hc, fun _ _ h => by simp [hpnp] at h⟩
  -- what is left only calls, reads locals and assigns the session
  all_goals
    repeat' first
      | with_reducible first
        | refine Preserves.bind ?_ fun _ => ?_
        | refine preserves_ite ?_ ?_
        | exact preserves_call (fun _ _ h => h) _
        | exact preserves_pure _
        | exact preserves_throw _
        | exact preserves_ofResult _
        | exact preserves_bound _ _
        | exact preserves_getFrame
      | exact preserves_setFrame fun _ h => h

/-- Off Linux, a `try` block whose change command returned ends with the connection id and mode
`ModeChosen` names. -/
theorem changeMac_modeChosen {findall : String → String → Bool} {ctx : Ctx} {g : Guest}
    {v : PyVal} (hl : ctx.osType ≠ some "linux") (hv : g.reply = .returns v)
    (hc : g.frame.connectionId = ctx.nic.connectionId) :
    ModeChosen ctx (endState (changeMac findall ctx g)).frame := by
  simp only [changeMac, bind_of_ok (call_of_returns hv), if_neg hl, endState_bind]
  have h := (modeChosen_pieces findall ctx).1 (g.next (.cmd .serial ctx.changeCmd)) hc
  split <;> rename_i hr <;> rw [hr] at h
  · exact (modeChosen_pieces findall ctx).2 _ h
  · exact h

/-- Since the log `l`, the test has logged in again exactly when the session it holds is the new
one: the log is `l` and then `t`, and the session is the new one exactly when a `wait_for_login`
in `t` returned. -/
def ReloggedSince (timeout : Int) (l : List (Call × Reply)) (g : Guest) : Prop :=
  ∃ t, g.log = l ++ t ∧ (g.frame.session = .relogin ↔ ∃ v, (.waitForLogin timeout, .returns v) ∈ t)

section Relogged

variable {timeout : Int} {l : List (Call × Reply)}

/-- A call that is no returned `wait_for_login` keeps the session and what the log says of it. -/
theorem ReloggedSince.next {g : Guest} {c : Call} (h : ReloggedSince timeout l g)
    (hc : ∀ v, (c, g.reply) ≠ (.waitForLogin timeout, .returns v)) :
    ReloggedSince timeout l (g.next c) := by
  obtain ⟨t, ht, hs⟩ := h
  refine ⟨t ++ [(c, g.reply)], by rw [Guest.next_log, ht, List.append_assoc], ?_⟩
  rw [Guest.next_frame, hs]
  simp only [List.mem_append, List.mem_singleton]
  exact exists_congr fun v => (or_iff_left (hc v).symm).symm

theorem ReloggedSince.preserves_call {c : Call} (hc : c ≠ .waitForLogin timeout) :
    Preserves (ReloggedSince timeout l) (call c) :=
  preserves_call_of fun _ h => h.next fun _ e => hc (Prod.mk.inj e).1

/-- Logging in again: a `wait_for_login` that returns is followed at once by the assignment of
the new session, and one that raises changes nothing. -/
theorem ReloggedSince.preserves_relogin {β : Type} {k : Unit → GuestM β}
    (hk : ∀ u, Preserves (ReloggedSince timeout l) (k u)) :
    Preserves (ReloggedSince timeout l) (call (.waitForLogin timeout) >>= fun _ =>
      setFrame (fun f => { f with session := .relogin }) >>= k) := by
  intro g hg
  cases hr : g.reply with
  | raises x =>
    rw [bind_of_error (call_of_raises hr)]
    exact hg.next fun _ e => by rw [hr] at e; cases e
  | returns v =>
    rw [bind_of_ok (call_of_returns hr), setFrame_bind_run]
    obtain ⟨t, ht, -⟩ := hg
    exact hk () _ ⟨t ++ [(.waitForLogin timeout, .returns v)], by simp [ht, hr],
      by simp only [List.mem_append, List.mem_singleton, true_iff]; exact ⟨v, .inr rfl⟩⟩

end Relogged

/-- **The session the `try` block leaves** is the new one exactly when its `wait_for_login`
returned, however the block ended. -/
theorem changeMac_relogged (findall : String → String → Bool) (ctx : Ctx) {g : Guest}
    (hs : g.frame.session = .login) :
    ReloggedSince ctx.timeout g.log (endState (changeMac findall ctx g)) := by
  refine (show Preserves (ReloggedSince ctx.timeout g.log) (changeMac findall ctx) from ?_) g
    ⟨[], (List.append_nil _).symm, by simp [hs]⟩
  simp only [changeMac, relogin, verifyLinux, verifyWindows]
  repeat' first
    | with_reducible first
      | refine ReloggedSince.preserves_relogin fun _ => ?_
      | refine Preserves.bind ?_ fun _ => ?_
      | refine preserves_ite ?_ ?_
      | exact preserves_pure _
      | exact preserves_throw _
      | exact preserves_ofResult _
      | exact preserves_bound _ _
      | exact preserves_getFrame
    | exact ReloggedSince.preserves_call (by simp)
    | exact preserves_setFrame fun _ h => h

/-- Whatever the `try` block does after its change command, it keeps the log it started. -/
theorem changeMac_keepsLog (findall : String → String → Bool) (ctx : Ctx) (g : Guest) :
    (g.next (.cmd .serial ctx.changeCmd)).log <+: (endState (changeMac findall ctx g)).log := by
  have hpieces := (stable_logHead (g.next (.cmd .serial ctx.changeCmd)).log).preserves_pieces
  simp only [changeMac]
  cases hr : g.reply with
  | raises x =>
    rw [bind_of_error (call_of_raises hr)]
    exact List.prefix_refl _
  | returns v =>
    rw [bind_of_ok (call_of_returns hr)]
    exact preserves_ite (c := ctx.osType = some "linux")
      ((hpieces.2.2.1 ctx).bind fun _ => hpieces.2.2.2.2.1 ctx)
      ((hpieces.2.2.2.1 findall ctx).bind fun _ => hpieces.2.2.2.2.1 ctx) _ (List.prefix_refl _)

/-- A call that a run through it answered returned, and the run went on from its answer. -/
theorem answered_call {β : Type} {c : Call} {f : PyVal → GuestM β} {g : Guest}
    (h : ∀ e ∈ (endState ((call c >>= f) g)).log, ∃ v, e.2 = .returns v) :
    ∃ v, g.reply = .returns v ∧ (call c >>= f) g = f v (g.next c) := by
  cases hr : g.reply with
  | raises y =>
    rw [bind_of_error (call_of_raises hr)] at h
    obtain ⟨v, hv⟩ := h (c, g.reply) (List.mem_append_right _ (List.mem_singleton_self _))
    rw [hr] at hv
    cases hv
  | returns v => exact ⟨v, rfl, bind_of_ok (call_of_returns hr)⟩

/-- On Windows, from a world whose locals are bound, a `finally` block whose every call is answered
makes its five calls in order. -/
theorem cleanUp_answered {format : String → List PyVal → Except TestExc String} {params : Params}
    {ctx : Ctx} {g : Guest} {n cid : PyVal} {i : Int} {p c m : String}
    (hos : ctx.osType = some "windows") (hn : ctx.nic.nicIndex = some n) (hi : pyInt n = .ok i)
    (hpat : params.lookup "clean_cmd" = some p) (hf : format p [.int i] = .ok c)
    (hc : g.frame.connectionId = some cid) (hm : g.frame.mode = some m)
    (hans : ∀ e ∈ (endState (cleanUp format params ctx g)).log, ∃ v, e.2 = .returns v) :
    (endState (cleanUp format params ctx g)).log.map Prod.fst =
      g.log.map Prod.fst ++ [.cmd .serial c, .restartWindowsGuestNetwork .serial cid m,
        .setNicMac ctx.oldMac, .updateDb, .close g.frame.session] := by
  simp only [cleanUp, hos, if_true, hn, hi, bound_some_bind, ofResult_ok_bind, hpat, percent_some,
    hf] at hans ⊢
  obtain ⟨_, -, e₁⟩ := answered_call hans
  rw [e₁] at hans ⊢
  simp only [getFrame_bind_run, Guest.next_frame, hc, hm, bound_some_bind] at hans ⊢
  -- the restart and the NIC database's two calls each return in turn
  iterate 3
    obtain ⟨_, -, e⟩ := answered_call hans
    rw [e] at hans ⊢
  simp only [pure_bind_run, getFrame_bind_run, Guest.next_frame, endState_call_pure]
  simp

/-! ## 8. `get_drive_num` -/

/-- The search finds a word character followed by a colon, and none starts earlier. -/
theorem searchDrive_some : ∀ {cs : List Char} {d : String}, searchDrive cs = some d →
    ∃ pre c post, cs = pre ++ c :: ':' :: post ∧ isWordChar c = true ∧ d = ⟨[c, ':']⟩ ∧
      ∀ pre₁ c₁ post₁, cs = pre₁ ++ c₁ :: ':' :: post₁ → isWordChar c₁ = true →
        pre.length ≤ pre₁.length
  | [], _, h => by cases h
  | c :: rest, d, h => by
    -- a match further on is the first one of `c :: rest` unless `c` starts one
    have hlater : ∀ {pre c₁ post}, rest = pre ++ c₁ :: ':' :: post → isWordChar c₁ = true →
        (∀ pre₁ c₂ post₁, rest = pre₁ ++ c₂ :: ':' :: post₁ → isWordChar c₂ = true →
          pre.length ≤ pre₁.length) →
        ¬ (isWordChar c = true ∧ ∃ t, rest = ':' :: t) →
        ∃ pre c₂ post, c :: rest = pre ++ c₂ :: ':' :: post ∧ isWordChar c₂ = true ∧
          (⟨[c₁, ':']⟩ : String) = ⟨[c₂, ':']⟩ ∧
          ∀ pre₁ c₃ post₁, c :: rest = pre₁ ++ c₃ :: ':' :: post₁ → isWordChar c₃ = true →
            pre.length ≤ pre₁.length := by
      intro pre c₁ post hrest hw hmin hno
      refine ⟨c :: pre, c₁, post, by rw [hrest]; rfl, hw, rfl, fun pre₁ c₃ post₁ heq hw₃ => ?_⟩
      cases pre₁ with
      | nil =>
        simp only [List.nil_append, List.cons.injEq] at heq
        exact absurd ⟨heq.1 ▸ hw₃, post₁, heq.2⟩ hno
      | cons x pre₁ =>
        simp only [List.cons_append, List.cons.injEq] at heq
        exact Nat.succ_le_succ (hmin pre₁ c₃ post₁ heq.2 hw₃)
    simp only [searchDrive] at h
    split at h
    · split_ifs at h with hc
      · cases h
        exact ⟨[], c, _, rfl, hc, rfl, fun _ _ _ _ _ => Nat.zero_le _⟩
      · obtain ⟨pre, c₁, post, hrest, hw, rfl, hmin⟩ := searchDrive_some h
        exact hlater hrest hw hmin fun h₁ => hc h₁.1
    · rename_i hnot
      obtain ⟨pre, c₁, post, hrest, hw, rfl, hmin⟩ := searchDrive_some h
      exact hlater hrest hw hmin fun ⟨_, t, ht⟩ => hnot t ht

/-- The search finds something wherever a word character is followed by a colon. -/
theorem searchDrive_isSome : ∀ {cs pre post : List Char} {c : Char},
    cs = pre ++ c :: ':' :: post → isWordChar c = true → (searchDrive cs).isSome = true
  | [], pre, _, _, h, _ => by cases pre <;> cases h
  | x :: rest, pre, post, c, h, hw => by
    simp only [searchDrive]
    cases pre with
    | nil =>
      simp only [List.nil_append, List.cons.injEq] at h
      obtain ⟨rfl, rfl⟩ := h
      simp [hw]
    | cons y pre =>
      simp only [List.cons_append, List.cons.injEq] at h
      have ih := searchDrive_isSome h.2 hw
      split
      · split_ifs <;> simp [ih]
      · exact ih

/-- **`get_drive_num` returns the first drive**: when `wmic` answers with a string, the function
returns, after that one call, the leftmost word character of the stripped output that a colon
follows, with the colon (`D:`, as the `xcopy` command that follows needs), and when no word
character of the output is followed by a colon it raises `TestError("No path … in your guest")`. -/
theorem getDriveNum_ok {session : Session} {path : String} {g : Guest} {s : String}
    (hs : g.reply = .returns (.str s)) :
    (∀ pre c post, (pyStrip s).toList = pre ++ c :: ':' :: post → isWordChar c = true →
      (∀ pre₁ c₁ post₁, (pyStrip s).toList = pre₁ ++ c₁ :: ':' :: post₁ → isWordChar c₁ = true →
        pre.length ≤ pre₁.length) →
      getDriveNum session path g = .ok ⟨[c, ':']⟩
        (g.next (.cmdOutput session ("wmic datafile where \"path='" ++ path ++ "'\" get drive") 360))) ∧
    ((∀ pre c post, (pyStrip s).toList = pre ++ c :: ':' :: post → isWordChar c = false) →
      getDriveNum session path g = .error (.testError ("No path " ++ path ++ " in your guest"))
        (g.next (.cmdOutput session ("wmic datafile where \"path='" ++ path ++ "'\" get drive") 360))) := by
  set g' := g.next (.cmdOutput session ("wmic datafile where \"path='" ++ path ++ "'\" get drive") 360)
  have hrun : getDriveNum session path g =
      match searchDrive (pyStrip s).toList with
      | some d => .ok d g'
      | none => .error (.testError ("No path " ++ path ++ " in your guest")) g' := by
    simp only [getDriveNum, bind_of_ok (call_of_returns hs), PyVal.asStr, ofResult_ok_bind]
    cases searchDrive (pyStrip s).toList <;> rfl
  rw [hrun]
  refine ⟨fun pre c post heq hw hmin => ?_, fun hno => ?_⟩
  · -- the search finds a match, and two leftmost matches are one
    obtain ⟨d, hd⟩ := Option.isSome_iff_exists.mp (searchDrive_isSome heq hw)
    obtain ⟨pre', c', post', heq', hw', rfl, hmin'⟩ := searchDrive_some hd
    have hlen : pre.length = pre'.length := le_antisymm (hmin _ _ _ heq' hw') (hmin' _ _ _ heq hw)
    obtain ⟨-, hc⟩ := List.append_inj (heq.symm.trans heq') hlen
    rw [hd, (List.cons.inj hc).1]
  · cases hsd : searchDrive (pyStrip s).toList with
    | none => rfl
    | some d =>
      obtain ⟨pre, c, post, heq, hw, -⟩ := searchDrive_some hsd
      rw [hno pre c post heq] at hw
      cases hw

theorem getDriveNum_ok_wmic :
    getDriveNum .login devconPath ⟨[.returns (.str "D:")], [], ⟨none, none, .login⟩⟩ =
        .ok "D:" (Guest.next ⟨[.returns (.str "D:")], [], ⟨none, none, .login⟩⟩
          (.cmdOutput .login ("wmic datafile where \"path='" ++ devconPath ++ "'\" get drive") 360)) ∧
      getDriveNum .login devconPath
          ⟨[.returns (.str "No Instance(s) Available.")], [], ⟨none, none, .login⟩⟩ =
        .error (.testError ("No path " ++ devconPath ++ " in your guest"))
          (Guest.next ⟨[.returns (.str "No Instance(s) Available.")], [], ⟨none, none, .login⟩⟩
            (.cmdOutput .login ("wmic datafile where \"path='" ++ devconPath ++ "'\" get drive")
              360)) :=
  ⟨(@getDriveNum_ok .login devconPath ⟨[.returns (.str "D:")], [], ⟨none, none, .login⟩⟩ "D:"
      rfl).1 [] 'D' [] rfl rfl fun _ _ _ _ _ => Nat.zero_le _,
    (@getDriveNum_ok .login devconPath
      ⟨[.returns (.str "No Instance(s) Available.")], [], ⟨none, none, .login⟩⟩
      "No Instance(s) Available." rfl).2 fun pre c post h => absurd
      (h ▸ List.mem_append_right pre (List.mem_cons_of_mem c (List.mem_cons_self ':' post)))
      (by decide : ':' ∉ (pyStrip "No Instance(s) Available.").toList)⟩

end MacChange

end LibvirtXml
