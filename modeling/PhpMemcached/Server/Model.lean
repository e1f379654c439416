import PhpMemcached.Client
import PhpMemcached.Doubles

/-!
# The server: callbacks and protocol handlers

* `ServerEvent`         the events a PHP callback is registered for;
* `FcallInfo`, `Callbacks`   a registered callback, and the global table of them;
* `CZval`               a zval of the C code, by value or by reference;
* `ServerCall`, `ServerM`    the requests of a handler: a PHP callback, the response functions of
                        libmemcachedprotocol;
* `sInvokePhpCallback`  the call of a callback;
* `sAddHandler`, …      the handlers;
* `Command`             a protocol command, and the handler that serves it.
-/

namespace PhpMemcached
open Ascii Requests

/-! ## callbacks -/

/-- `php_memc_event_t` -/
inductive ServerEvent where
  | connect | add | append | decrement | delete | flush | get | increment | noop | prepend | quit
  | replace | set | stat | version
  deriving DecidableEq, Repr

/-- the events by their numbers, between `MEMC_SERVER_ON_MIN` and `MEMC_SERVER_ON_MAX` -/
def serverEvents : List ServerEvent :=
  [.connect, .add, .append, .decrement, .delete, .flush, .get, .increment, .noop, .prepend, .quit,
    .replace, .set, .stat, .version]

/-- `zend_fcall_info`: a callable and its object; `ref` numbers the references taken, and nothing
depends on it -/
structure FcallInfo where
  size : Nat
  functionName : Zval
  object : Option Nat
  ref : Nat

/-- `MEMC_SERVER_G(callbacks)` -/
abbrev Callbacks := ServerEvent → FcallInfo

/-- `MEMC_HAS_CB` -/
def memcHasCb (callbacks : Callbacks) (event : ServerEvent) : Bool := 0 < (callbacks event).size

/-! ## zvals of the C code -/

/-- a zval: a value, or a reference (`IS_REFERENCE`) to one -/
inductive CZval where
  | val (v : Zval)
  | ref (v : Zval)
  deriving Repr

namespace CZval

/-- `ZVAL_MAKE_REF` -/
def makeRef : CZval → CZval
  | .val v | .ref v => .ref v

/-- the value, behind the reference if there is one -/
def deref : CZval → Zval
  | .val v | .ref v => v

/-- `Z_TYPE(zv) == IS_NULL` -/
def isNull : CZval → Bool
  | .val .null => true
  | _ => false

/-- the integer, where `Z_TYPE(zv) == IS_LONG` -/
def long? : CZval → Option Int64
  | .val (.long n) => some n
  | _ => none

/-- what a callback leaves in its argument: only a reference is seen to change -/
def assign (zv : CZval) (v : Option Zval) : CZval :=
  match zv with
  | .val v => .val v
  | .ref old => .ref (v.getD old)

end CZval

/-! ## requests -/

/-- the data of a packet, whose length is a field of 32 bits -/
structure Body where
  bytes : Bytes
  lt : bytes.length < 2 ^ 32

/-- a string given with a length argument of 32 bits -/
def Body.ofString (b : Bytes) : Body where
  bytes := b.take (b.length % 2 ^ 32)
  lt := by
    have := Nat.mod_lt b.length (Nat.two_pow_pos 32)
    rw [List.length_take]
    omega

theorem Body.ofString_bytes (data : Body) : Body.ofString data.bytes = data := by
  have h : data.bytes.take (data.bytes.length % 2 ^ 32) = data.bytes := by
    rw [Nat.mod_eq_of_lt data.lt, List.take_length]
  cases data
  exact (Body.mk.injEq ..).mpr h

inductive ServerCall where
  /-- `zend_call_function` -/
  | invoke (fci : FcallInfo) (params : List CZval)
  | warning (text : String)
  | getResponse (cookie : Nat) (key : Bytes) (data : Body) (flags : UInt32) (cas : UInt64)
  | statResponse (cookie : Nat) (key : Bytes) (value : Body)
  | versionResponse (cookie : Nat) (text : Body)

/-- how a callback ended: whether it was called, what it returned (nothing after an exception), and
what it assigned to its arguments -/
structure InvokeAns where
  ran : Bool
  retval : Option Zval
  assigned : Nat → Option Zval

/-- `protocol_binary_response_status` -/
abbrev ResponseStatus := UInt32

def responseSuccess : ResponseStatus := 0
def responseKeyEnoent : ResponseStatus := 1
def responseUnknownCommand : ResponseStatus := 129

def ServerAns : ServerCall → Type
  | .invoke .. => InvokeAns
  | .warning _ => Unit
  | _ => ResponseStatus

/-- the commands of the server on states `S` -/
abbrev ServerM (S : Type) := Cmd ServerCall ServerAns Abort S

abbrev askServer {S : Type} (c : ServerCall) : ServerM S (ServerAns c) := Cmd.req c

/-- the response handlers of libmemcachedprotocol -/
def getResponseHandler {S : Type} (cookie : Nat) (key : Bytes) (data : Body) (flags : UInt32)
    (cas : UInt64) : ServerM S ResponseStatus := askServer (.getResponse cookie key data flags cas)

def statResponseHandler {S : Type} (cookie : Nat) (key : Bytes) (value : Body) :
    ServerM S ResponseStatus := askServer (.statResponse cookie key value)

def versionResponseHandler {S : Type} (cookie : Nat) (text : Body) : ServerM S ResponseStatus :=
  askServer (.versionResponse cookie text)

/-- what the handlers use of the PHP runtime -/
structure ServerEnv where
  zend : Zend
  /-- `zval_get_double` of arrays and objects -/
  toDouble : Zval → Dbl
  /-- `convert_to_array` of objects -/
  toArray : Zval → HashTable
  /-- `php_memc_printable_func` -/
  phpMemcPrintableFunc : FcallInfo → String

section
variable (env : ServerEnv) {S : Type}

/-- `zval_get_double` -/
def zvalGetDouble : Zval → Dbl
  | .null => Dbl.ofInt 0
  | .bool b => Dbl.ofInt (if b then 1 else 0)
  | .long n => Dbl.ofInt n.toInt
  | .double d => d
  | .str s => env.zend.strtod s
  | v => env.toDouble v

/-- `MEMC_MAKE_RESULT_CAS` -/
def memcMakeResultCas (zresultCas : CZval) : UInt64 :=
  (zvalGetDouble env zresultCas.deref).toUInt64 env.zend

/-- `convert_to_string`: a reference is replaced by its value -/
def convertToString (zv : CZval) : Bytes := zvalGetString env.zend zv.deref

/-- `convert_to_array` -/
def convertToArray : Zval → HashTable
  | .null => []
  | .arr a => a
  | .obj handle => env.toArray (.obj handle)
  | v => [(.int 0, v)]

/-- `MEMC_MAKE_ZVAL_COOKIE`: the pointer as text -/
def memcMakeZvalCookie (cookie : Nat) : CZval :=
  .val (.str (if cookie = 0 then ascii ['0'] else ascii ('0' :: 'x' :: Nat.toDigits 16 cookie)))

/-- `ZVAL_NULL`, `ZVAL_MAKE_REF` -/
def nullRef : CZval := (CZval.val .null).makeRef

/-- what a callback has returned -/
def callbackResult (r : InvokeAns) : Int64 :=
  match r.retval with
  | none => responseUnknownCommand.toUInt64.toInt64
  | some v => zvalGetLong env.zend v

/-- the arguments as a callback leaves them -/
def argumentsAfter (r : InvokeAns) (params : List CZval) : List CZval :=
  params.mapIdx fun i zv => zv.assign (r.assigned i)

/-- `s_invoke_php_callback` -/
def sInvokePhpCallback (fci : FcallInfo) (params : List CZval) : ServerM S (Int64 × List CZval) := do
  let r ← askServer (.invoke fci params)
  Cmd.when (!r.ran) (askServer
    (.warning ("Failed to invoke callback " ++ env.phpMemcPrintableFunc fci ++ "()")))
  pure (callbackResult env r, argumentsAfter r params)

/-- `protocol_binary_response_status retval = ..` -/
def responseStatus (retval : Int64) : ResponseStatus := retval.toUInt64.toUInt32

/-- `params[i]`, which every handler has put there -/
def param (params : List CZval) (i : Nat) : CZval := params.getD i nullRef

/-! ## handlers

A result argument a handler does not write to is `none`. -/

variable (callbacks : Callbacks)

/-- a handler without a callback answers that it does not know the command -/
def withCallback {α : Type} (event : ServerEvent) (none : α) (m : FcallInfo → ServerM S α) :
    ServerM S α :=
  if memcHasCb callbacks event then m (callbacks event) else pure none

/-- the arguments of `ON_ADD` -/
def addParams (cookie : Nat) (key : Bytes) (data : Body) (flags exptime : UInt32) : List CZval :=
  [memcMakeZvalCookie cookie, .val (.str key), .val (.str data.bytes),
    .val (.long flags.toUInt64.toInt64), .val (.long exptime.toUInt64.toInt64), nullRef]

/-- `s_add_handler` -/
def sAddHandler (cookie : Nat) (key : Bytes) (data : Body) (flags exptime : UInt32) :
    ServerM S (ResponseStatus × Option UInt64) :=
  withCallback callbacks .add (responseUnknownCommand, none) fun fci => do
    let r ← sInvokePhpCallback env fci (addParams cookie key data flags exptime)
    pure (responseStatus r.1, some (memcMakeResultCas env (param r.2 5)))

/-- the arguments of `ON_APPEND` and `ON_PREPEND` -/
def appendPrependParams (cookie : Nat) (key : Bytes) (data : Body) (cas : UInt64) : List CZval :=
  [memcMakeZvalCookie cookie, .val (.str key), .val (.str data.bytes),
    .val (.double (Dbl.ofNat cas.toNat)), nullRef]

/-- `s_append_prepend_handler` -/
def sAppendPrependHandler (event : ServerEvent) (cookie : Nat) (key : Bytes) (data : Body) (cas : UInt64) :
    ServerM S (ResponseStatus × Option UInt64) :=
  withCallback callbacks event (responseUnknownCommand, none) fun fci => do
    let r ← sInvokePhpCallback env fci (appendPrependParams cookie key data cas)
    pure (responseStatus r.1, some (memcMakeResultCas env (param r.2 4)))

def sAppendHandler := sAppendPrependHandler (S := S) env callbacks .append
def sPrependHandler := sAppendPrependHandler (S := S) env callbacks .prepend

/-- the arguments of `ON_INCREMENT` and `ON_DECREMENT` -/
def incrDecrParams (cookie : Nat) (key : Bytes) (delta initial : UInt64) (expiration : UInt32) :
    List CZval :=
  [memcMakeZvalCookie cookie, .val (.str key), .val (.long delta.toInt64),
    .val (.long initial.toInt64), .val (.long expiration.toUInt64.toInt64),
    (CZval.val (.long 0)).makeRef, nullRef]

/-- `s_incr_decr_handler`; the result is the number, with the CAS -/
def sIncrDecrHandler (event : ServerEvent) (cookie : Nat) (key : Bytes) (delta initial : UInt64)
    (expiration : UInt32) : ServerM S (ResponseStatus × Option (UInt64 × UInt64)) :=
  withCallback callbacks event (responseUnknownCommand, none) fun fci => do
    let r ← sInvokePhpCallback env fci (incrDecrParams cookie key delta initial expiration)
    pure (responseStatus r.1, some ((zvalGetLong env.zend (param r.2 5).deref).toUInt64,
      memcMakeResultCas env (param r.2 6)))

def sIncrementHandler := sIncrDecrHandler (S := S) env callbacks .increment
def sDecrementHandler := sIncrDecrHandler (S := S) env callbacks .decrement

/-- the arguments of `ON_DELETE` -/
def deleteParams (cookie : Nat) (key : Bytes) (cas : UInt64) : List CZval :=
  [memcMakeZvalCookie cookie, .val (.str key), .val (.double (Dbl.ofNat cas.toNat))]

/-- `s_delete_handler` -/
def sDeleteHandler (cookie : Nat) (key : Bytes) (cas : UInt64) : ServerM S ResponseStatus :=
  withCallback callbacks .delete responseUnknownCommand fun fci => do
    let r ← sInvokePhpCallback env fci (deleteParams cookie key cas)
    pure (responseStatus r.1)

/-- the arguments of `ON_FLUSH` -/
def flushParams (cookie : Nat) (when_ : UInt32) : List CZval :=
  [memcMakeZvalCookie cookie, .val (.long when_.toUInt64.toInt64)]

/-- `s_flush_handler` -/
def sFlushHandler (cookie : Nat) (when_ : UInt32) : ServerM S ResponseStatus :=
  withCallback callbacks .flush responseUnknownCommand fun fci => do
    let r ← sInvokePhpCallback env fci (flushParams cookie when_)
    pure (responseStatus r.1)

/-- the arguments of `ON_GET` -/
def getParams (cookie : Nat) (key : Bytes) : List CZval :=
  [memcMakeZvalCookie cookie, .val (.str key), nullRef, nullRef, nullRef]

/-- what `s_get_handler` does after its callback, if that was a success; the zvals are those of the arguments -/
def getRespond (cookie : Nat) (key : Bytes) (params : List CZval) : ServerM S ResponseStatus :=
  let zvalue := param params 2
  let zflags := param params 3
  if zvalue.isNull then pure responseKeyEnoent
  else
    let flags : UInt32 := match zflags.long? with
      | some n => n.toUInt64.toUInt32
      | none => 0
    getResponseHandler cookie key (Body.ofString (convertToString env zvalue)) flags
      (memcMakeResultCas env (param params 4))

def getAfter (cookie : Nat) (key : Bytes) (r : Int64 × List CZval) : ServerM S ResponseStatus :=
  if responseStatus r.1 = responseSuccess then getRespond env cookie key r.2
  else pure (responseStatus r.1)

/-- `s_get_handler` -/
def sGetHandler (cookie : Nat) (key : Bytes) : ServerM S ResponseStatus :=
  withCallback callbacks .get responseUnknownCommand fun fci => do
    let r ← sInvokePhpCallback env fci (getParams cookie key)
    getAfter env cookie key r

/-- `s_noop_handler` and `s_quit_handler` -/
def sCookieHandler (event : ServerEvent) (cookie : Nat) : ServerM S ResponseStatus :=
  withCallback callbacks event responseUnknownCommand fun fci => do
    let r ← sInvokePhpCallback env fci [memcMakeZvalCookie cookie]
    pure (responseStatus r.1)

def sNoopHandler := sCookieHandler (S := S) env callbacks .noop
def sQuitHandler := sCookieHandler (S := S) env callbacks .quit

/-- the arguments of `ON_SET` and `ON_REPLACE` -/
def setReplaceParams (cookie : Nat) (key : Bytes) (data : Body) (flags expiration : UInt32)
    (cas : UInt64) : List CZval :=
  [memcMakeZvalCookie cookie, .val (.str key), .val (.str data.bytes),
    .val (.long flags.toUInt64.toInt64), .val (.long expiration.toUInt64.toInt64),
    .val (.double (Dbl.ofNat cas.toNat)), nullRef]

/-- `s_set_replace_handler` -/
def sSetReplaceHandler (event : ServerEvent) (cookie : Nat) (key : Bytes) (data : Body)
    (flags expiration : UInt32) (cas : UInt64) : ServerM S (ResponseStatus × Option UInt64) :=
  withCallback callbacks event (responseUnknownCommand, none) fun fci => do
    let r ← sInvokePhpCallback env fci (setReplaceParams cookie key data flags expiration cas)
    pure (responseStatus r.1, some (memcMakeResultCas env (param r.2 6)))

def sReplaceHandler := sSetReplaceHandler (S := S) env callbacks .replace
def sSetHandler := sSetReplaceHandler (S := S) env callbacks .set

/-- the statistics are sent until one is not taken -/
def statResponses (cookie : Nat) : HashTable → ResponseStatus → ServerM S ResponseStatus
  | [], retval => pure retval
  | (key, val) :: stats, _ => do
    let name := match key with
      | .str s => s.take (s.length % 2 ^ 16)
      | .int n => intText n.toInt
    let retval ← statResponseHandler cookie name (Body.ofString (zvalGetString env.zend val))
    if retval = responseSuccess then statResponses cookie stats retval else pure retval

/-- the arguments of `ON_STAT`; no key is the empty one -/
def statParams (cookie : Nat) (key : Bytes) : List CZval :=
  [memcMakeZvalCookie cookie, .val (if key.length = 0 then .null else .str key),
    (CZval.val (.arr [])).makeRef]

def statAfter (cookie : Nat) (r : Int64 × List CZval) : ServerM S ResponseStatus :=
  if responseStatus r.1 = responseSuccess then
    statResponses env cookie (convertToArray env (param r.2 2).deref) (responseStatus r.1)
  else pure (responseStatus r.1)

/-- `s_stat_handler` -/
def sStatHandler (cookie : Nat) (key : Bytes) : ServerM S ResponseStatus :=
  withCallback callbacks .stat responseUnknownCommand fun fci => do
    let r ← sInvokePhpCallback env fci (statParams cookie key)
    statAfter env cookie r

/-- the arguments of `ON_VERSION` -/
def versionParams (cookie : Nat) : List CZval := [memcMakeZvalCookie cookie, nullRef]

def versionAfter (cookie : Nat) (r : Int64 × List CZval) : ServerM S ResponseStatus :=
  if responseStatus r.1 = responseSuccess then
    versionResponseHandler cookie (Body.ofString (convertToString env (param r.2 1)))
  else pure (responseStatus r.1)

/-- `s_version_handler` -/
def sVersionHandler (cookie : Nat) : ServerM S ResponseStatus :=
  withCallback callbacks .version responseUnknownCommand fun fci => do
    let r ← sInvokePhpCallback env fci (versionParams cookie)
    versionAfter env cookie r

/-! ## commands -/

theorem withCallback_pos {α : Type} {callbacks : Callbacks} {event : ServerEvent}
    (hcb : memcHasCb callbacks event = true) (none : α) (m : FcallInfo → ServerM S α) :
    withCallback callbacks event none m = m (callbacks event) := if_pos hcb

theorem withCallback_neg {α : Type} {callbacks : Callbacks} {event : ServerEvent}
    (hcb : memcHasCb callbacks event = false) (none : α) (m : FcallInfo → ServerM S α) :
    withCallback callbacks event none m = pure none := by
  unfold withCallback
  rw [hcb]
  rfl

theorem withCallback_bind {α β : Type} (callbacks : Callbacks) (event : ServerEvent) (none : α)
    (m : FcallInfo → ServerM S α) (g : α → ServerM S β) :
    withCallback callbacks event none m >>= g =
      if memcHasCb callbacks event then m (callbacks event) >>= g else g none := by
  unfold withCallback
  split <;> rfl

/-- a callback that is called -/
theorem exec_sInvokePhpCallback {σ : Type} {h : Handler ServerCall ServerAns σ} (fci : FcallInfo)
    (params : List CZval) {w : σ} (hran : (h (.invoke fci params) w).1.ran = true) (s : S) :
    Cmd.exec h (sInvokePhpCallback env fci params) s w =
        (.done (callbackResult env (h (.invoke fci params) w).1,
          argumentsAfter (h (.invoke fci params) w).1 params) s, (h (.invoke fci params) w).2) ∧
      Cmd.log h (sInvokePhpCallback env fci params) s w =
        [⟨.invoke fci params, (h (.invoke fci params) w).1⟩] := by
  unfold sInvokePhpCallback
  rw [Cmd.exec_req_bind, Cmd.log_req_bind, hran]
  exact ⟨rfl, rfl⟩

/-- a command of the binary protocol, as libmemcachedprotocol hands it on -/
inductive Command where
  | add (key : Bytes) (data : Body) (flags exptime : UInt32)
  | append (key : Bytes) (data : Body) (cas : UInt64)
  | prepend (key : Bytes) (data : Body) (cas : UInt64)
  | increment (key : Bytes) (delta initial : UInt64) (expiration : UInt32)
  | decrement (key : Bytes) (delta initial : UInt64) (expiration : UInt32)
  | delete (key : Bytes) (cas : UInt64)
  | flush (when_ : UInt32)
  | get (key : Bytes)
  | noop
  | quit
  | replace (key : Bytes) (data : Body) (flags expiration : UInt32) (cas : UInt64)
  | set (key : Bytes) (data : Body) (flags expiration : UInt32) (cas : UInt64)
  | stat (key : Bytes)
  | version

/-- the event of a command -/
def Command.event : Command → ServerEvent
  | .add .. => .add
  | .append .. => .append
  | .prepend .. => .prepend
  | .increment .. => .increment
  | .decrement .. => .decrement
  | .delete .. => .delete
  | .flush .. => .flush
  | .get .. => .get
  | .noop => .noop
  | .quit => .quit
  | .replace .. => .replace
  | .set .. => .set
  | .stat .. => .stat
  | .version => .version

/-- the handler of a command, as `php_memc_proto_handler_new` installs it; the CAS is that of the
response, if the handler has one to give -/
def Command.handle (cookie : Nat) : Command → ServerM S (ResponseStatus × Option UInt64)
  | .add key data flags exptime => do
    let r ← sAddHandler env callbacks cookie key data flags exptime
    pure (r.1, r.2)
  | .append key data cas => do
    let r ← sAppendHandler env callbacks cookie key data cas
    pure (r.1, r.2)
  | .prepend key data cas => do
    let r ← sPrependHandler env callbacks cookie key data cas
    pure (r.1, r.2)
  | .increment key delta initial expiration => do
    let r ← sIncrementHandler env callbacks cookie key delta initial expiration
    pure (r.1, r.2.map Prod.snd)
  | .decrement key delta initial expiration => do
    let r ← sDecrementHandler env callbacks cookie key delta initial expiration
    pure (r.1, r.2.map Prod.snd)
  | .delete key cas => do
    let r ← sDeleteHandler env callbacks cookie key cas
    pure (r, none)
  | .flush when_ => do
    let r ← sFlushHandler env callbacks cookie when_
    pure (r, none)
  | .get key => do
    let r ← sGetHandler env callbacks cookie key
    pure (r, none)
  | .noop => do
    let r ← sNoopHandler env callbacks cookie
    pure (r, none)
  | .quit => do
    let r ← sQuitHandler env callbacks cookie
    pure (r, none)
  | .replace key data flags expiration cas => do
    let r ← sReplaceHandler env callbacks cookie key data flags expiration cas
    pure (r.1, r.2)
  | .set key data flags expiration cas => do
    let r ← sSetHandler env callbacks cookie key data flags expiration cas
    pure (r.1, r.2)
  | .stat key => do
    let r ← sStatHandler env callbacks cookie key
    pure (r, none)
  | .version => do
    let r ← sVersionHandler env callbacks cookie
    pure (r, none)

/-- the arguments its callback is given -/
def Command.params (cookie : Nat) : Command → List CZval
  | .add key data flags exptime => addParams cookie key data flags exptime
  | .append key data cas | .prepend key data cas => appendPrependParams cookie key data cas
  | .increment key delta initial expiration | .decrement key delta initial expiration =>
    incrDecrParams cookie key delta initial expiration
  | .delete key cas => deleteParams cookie key cas
  | .flush when_ => flushParams cookie when_
  | .get key => getParams cookie key
  | .noop | .quit => [memcMakeZvalCookie cookie]
  | .replace key data flags expiration cas | .set key data flags expiration cas =>
    setReplaceParams cookie key data flags expiration cas
  | .stat key => statParams cookie key
  | .version => versionParams cookie

/-- the argument it assigns its result CAS to -/
def Command.resultCas : Command → Option Nat
  | .add .. => some 5
  | .append .. | .prepend .. | .get _ => some 4
  | .increment .. | .decrement .. | .replace .. | .set .. => some 6
  | _ => none

/-- what is done after its callback -/
def Command.finish (cookie : Nat) (c : Command) (r : Int64 × List CZval) :
    ServerM S (ResponseStatus × Option UInt64) :=
  match c with
  | .get key => do
    let status ← getAfter env cookie key r
    pure (status, none)
  | .stat _ => do
    let status ← statAfter env cookie r
    pure (status, none)
  | .version => do
    let status ← versionAfter env cookie r
    pure (status, none)
  | c => pure (responseStatus r.1, c.resultCas.map fun i => memcMakeResultCas env (param r.2 i))

/-- a handler calls its callback if there is one, and goes on from there -/
theorem handle_eq (callbacks : Callbacks) (c : Command) (cookie : Nat) :
    c.handle (S := S) env callbacks cookie =
      withCallback callbacks c.event (responseUnknownCommand, none) fun fci =>
        sInvokePhpCallback env fci (c.params cookie) >>= c.finish env cookie := by
  cases c <;>
    simp only [Command.handle, sAddHandler, sAppendHandler, sPrependHandler, sAppendPrependHandler,
      sIncrementHandler, sDecrementHandler, sIncrDecrHandler, sDeleteHandler, sFlushHandler,
      sGetHandler, sNoopHandler, sQuitHandler, sCookieHandler, sReplaceHandler, sSetHandler,
      sSetReplaceHandler, sStatHandler, sVersionHandler, withCallback_bind, bind_assoc] <;>
    rfl

/-- the requests but the calls of callbacks -/
def ServerCall.NoInvoke : ServerCall → Prop
  | .invoke .. => False
  | _ => True

theorem asks_askServer {c : ServerCall} (hc : c.NoInvoke) (s : S) :
    Cmd.Asks ServerCall.NoInvoke (askServer c) s := ⟨hc, fun _ => trivial⟩

theorem asks_statResponses (cookie : Nat) (stats : HashTable) (retval : ResponseStatus) (s : S) :
    Cmd.Asks ServerCall.NoInvoke (statResponses env cookie stats retval) s := by
  induction stats generalizing retval s with
  | nil => exact trivial
  | cons e stats ih =>
    obtain ⟨key, val⟩ := e
    refine Cmd.Asks.bind (m := statResponseHandler _ _ _) ⟨trivial, fun _ => trivial⟩
      fun retval s' => ?_
    split
    · exact ih retval s'
    · exact trivial

/-- a handler calls no other callback afterwards -/
theorem asks_finish (c : Command) (cookie : Nat) (r : Int64 × List CZval) (s : S) :
    Cmd.Asks ServerCall.NoInvoke (c.finish env cookie r) s := by
  cases c with
  | get key =>
    refine Cmd.Asks.bind (m := getAfter env cookie key r) ?_ fun _ _ => trivial
    unfold getAfter getRespond
    dsimp only
    split
    · split
      · exact trivial
      · exact asks_askServer (by exact trivial) s
    · exact trivial
  | stat key =>
    refine Cmd.Asks.bind (m := statAfter env cookie r) ?_ fun _ _ => trivial
    unfold statAfter
    split
    · exact asks_statResponses env cookie _ _ s
    · exact trivial
  | version =>
    refine Cmd.Asks.bind (m := versionAfter env cookie r) ?_ fun _ _ => trivial
    unfold versionAfter
    split
    · exact asks_askServer (by exact trivial) s
    · exact trivial
  | _ => exact trivial

/-- a callback is called first, and no other -/
theorem log_withCallback {α σ : Type} {callbacks : Callbacks} {event : ServerEvent}
    (hcb : memcHasCb callbacks event = true) (none : α) (params : List CZval)
    {f : Int64 × List CZval → ServerM S α} (hf : ∀ r s, Cmd.Asks ServerCall.NoInvoke (f r) s)
    (h : Handler ServerCall ServerAns σ) (s : S) (w : σ) :
    ∃ rest, Cmd.log h (withCallback callbacks event none fun fci =>
        sInvokePhpCallback env fci params >>= f) s w =
        ⟨.invoke (callbacks event) params, (h (.invoke (callbacks event) params) w).1⟩ :: rest ∧
      ∀ e ∈ rest, e.req.NoInvoke := by
  rw [withCallback_pos hcb]
  unfold sInvokePhpCallback
  rw [bind_assoc, Cmd.log_req_bind]
  refine ⟨_, rfl, ?_⟩
  generalize h (.invoke (callbacks event) params) w = a
  refine Cmd.Sat.log (Q := fun _ _ => True) ?_ h a.2
  rw [bind_assoc]
  exact Cmd.Asks.bind (Cmd.Asks.when (asks_askServer (by exact trivial) s)) fun _ s' => hf _ s'

/-- **What a handler with a callback asks for.** -/
theorem log_handle {σ : Type} {callbacks : Callbacks} {c : Command}
    (hcb : memcHasCb callbacks c.event = true) (h : Handler ServerCall ServerAns σ) (cookie : Nat)
    (s : S) (w : σ) :
    ∃ rest, Cmd.log h (c.handle env callbacks cookie) s w =
        ⟨.invoke (callbacks c.event) (c.params cookie),
          (h (.invoke (callbacks c.event) (c.params cookie)) w).1⟩ :: rest ∧
      ∀ e ∈ rest, e.req.NoInvoke := by
  rw [handle_eq]
  exact log_withCallback env hcb _ _ (asks_finish env c cookie) h s w

/-- a handler without one asks for nothing -/
theorem log_handle_of_not_hasCb {σ : Type} {callbacks : Callbacks} {c : Command}
    (hcb : memcHasCb callbacks c.event = false) (h : Handler ServerCall ServerAns σ) (cookie : Nat)
    (s : S) (w : σ) : Cmd.log h (c.handle env callbacks cookie) s w = [] := by
  rw [handle_eq, withCallback_neg hcb]
  rfl

/-! ## new clients -/

/-- the argument of `ON_CONNECT`: NULL if the address is not known -/
def connectParams (remoteAddr : Option Bytes) : List CZval :=
  [.val (match remoteAddr with
    | some addr => .str addr
    | none => .null)]

/-- the call of `ON_CONNECT` in `s_handle_memcached_event`: whether the client may go on -/
def sOnConnect (callbacks : Callbacks) (remoteAddr : Option Bytes) : ServerM S Bool :=
  withCallback callbacks .connect true fun fci => do
    let r ← sInvokePhpCallback env fci (connectParams remoteAddr)
    pure (responseStatus r.1 == responseSuccess)

end

/-! ## the smallest setting -/

/-- a callable for every event -/
def closures : Callbacks := fun _ => ⟨1, .obj 1, none, 0⟩

/-- no doubles, no objects -/
def plainServer : ServerEnv where
  zend := plainZend
  toDouble _ := ⟨0⟩
  toArray _ := []
  phpMemcPrintableFunc _ := "Closure"

/-- no callback can be called; every response is taken -/
def noCallbacks : Handler ServerCall ServerAns Unit
  | .invoke _ _, w => (⟨false, none, fun _ => none⟩, w)
  | .warning _, w => ((), w)
  | .getResponse .., w => (responseSuccess, w)
  | .statResponse .., w => (responseSuccess, w)
  | .versionResponse .., w => (responseSuccess, w)

end PhpMemcached
