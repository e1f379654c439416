import Mathlib.Init

/-!
# Result codes (`memcached_return`)

* `Status`                     the result codes, those of libmemcached and the extension's own
                               `MEMC_RES_PAYLOAD_FAILURE`;
* `Status.code`                the number PHP code sees;
* `sMemcachedReturnIsError`    the classification every write, read and retry rests on.
-/

namespace PhpMemcached

/-- `memcached_return`; a code the extension has no name for is `other` -/
inductive Status where
  | success | failure | hostLookupFailure | connectionFailure | connectionBindFailure
  | writeFailure | readFailure | unknownReadFailure | protocolError | clientError | serverError
  | dataExists | dataDoesNotExist | notstored | stored | notfound | memoryAllocationFailure
  | partialRead | someErrors | noServers | end_ | deleted | value | stat | item | errno
  | failUnixSocket | notSupported | noKeyProvided | fetchNotfinished | timeout | buffered
  | badKeyProvided | invalidHostProtocol | serverMarkedDead | unknownStatKey | e2big
  | invalidArguments | keyTooBig | authProblem | authFailure | authContinue | parseError
  | parseUserError | deprecated | inProgress | serverTemporarilyDisabled
  | serverMemoryAllocationFailure | connectionSocketCreateFailure
  | payloadFailure
  | other (n : Nat)
  deriving DecidableEq, Repr

namespace Status

/-- the numbers of libmemcached's enumeration, and `-1001` for the extension's own code -/
def code : Status → Int
  | success => 0 | failure => 1 | hostLookupFailure => 2 | connectionFailure => 3
  | connectionBindFailure => 4 | writeFailure => 5 | readFailure => 6
  | unknownReadFailure => 7 | protocolError => 8 | clientError => 9 | serverError => 10
  | dataExists => 12 | dataDoesNotExist => 13 | notstored => 14 | stored => 15
  | notfound => 16 | memoryAllocationFailure => 17 | partialRead => 18 | someErrors => 19
  | noServers => 20 | end_ => 21 | deleted => 22 | value => 23 | stat => 24 | item => 25
  | errno => 26 | failUnixSocket => 27 | notSupported => 28 | noKeyProvided => 29
  | fetchNotfinished => 30 | timeout => 31 | buffered => 32 | badKeyProvided => 33
  | invalidHostProtocol => 34 | serverMarkedDead => 35 | unknownStatKey => 36 | e2big => 37
  | invalidArguments => 38 | keyTooBig => 39 | authProblem => 40 | authFailure => 41
  | authContinue => 42 | parseError => 43 | parseUserError => 44 | deprecated => 45
  | inProgress => 46 | serverTemporarilyDisabled => 47 | serverMemoryAllocationFailure => 48
  | connectionSocketCreateFailure => 11
  | payloadFailure => -1001
  | other n => 50 + n

end Status

/-- `s_memcached_return_is_error` -/
def sMemcachedReturnIsError (status : Status) (strict : Bool) : Bool :=
  match status with
  | .success | .stored | .deleted | .stat | .end_ | .buffered => false
  | .someErrors => strict
  | _ => true

@[simp] theorem isError_success (strict : Bool) :
    sMemcachedReturnIsError .success strict = false := rfl
@[simp] theorem isError_payloadFailure (strict : Bool) :
    sMemcachedReturnIsError .payloadFailure strict = true := rfl
@[simp] theorem isError_e2big (strict : Bool) :
    sMemcachedReturnIsError .e2big strict = true := rfl

/-- the non-strict reading has no error the strict one does not have -/
theorem isError_of_isError {status : Status} {strict : Bool}
    (h : sMemcachedReturnIsError status strict = true) :
    sMemcachedReturnIsError status true = true := by
  cases strict with
  | true => exact h
  | false => cases status <;> first | exact h | rfl

end PhpMemcached
