import NetworkStack.Core.ErrorCodes

/-!
# Errors of the transport in the words of the library (core/ErrorTranslation.cpp)

The translations a client uses. Category 0 is the system's, with its `errno` values, and
`none` is an `std::error_code` without an error.
-/

namespace NetworkStack

namespace ErrorTranslation

def timed_out : ErrorCode := .other 0 110

def connection_refused : ErrorCode := .other 0 111

def connection_aborted : ErrorCode := .other 0 103

def isConnectionClosed (ec : ErrorCode) : Bool :=
  ec ∈ [.asio .eof, .asio .connection_reset, .asio .broken_pipe, .asio .not_connected]

def isTimeout (ec : ErrorCode) : Bool := ec = timed_out

/- A broken pipe counts as refused here. -/
def isConnectionRefused (ec : ErrorCode) : Bool :=
  ec ∈ [connection_refused, connection_aborted, .asio .broken_pipe]

end ErrorTranslation

open ErrorTranslation

def makeConnectionError : Option ErrorCode → ErrorCode
  | none => .network .NO_ERROR
  | some ec =>
    if isTimeout ec then .network .CONNECTION_TIMEOUT
    else if isConnectionRefused ec then .network .CONNECTION_REFUSED
    else if isConnectionClosed ec then .network .CONNECTION_LOST
    else .network .CONNECTION_ESTABLISHMENT_FAILED

/- Whatever kind of DNS error it is. -/
def makeDnsError : Option ErrorCode → ErrorCode
  | none => .network .NO_ERROR
  | some _ => .network .DNS_RESOLUTION_FAILED

def makeTlsError : Option ErrorCode → ErrorCode
  | none => .network .NO_ERROR
  | some _ => .network .TLS_HANDSHAKE_FAILED

end NetworkStack
