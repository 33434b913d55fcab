import Mathlib.Data.List.Basic

/-!
# Bytes and error codes (core/ErrorCodes.h)

`std::vector<std::byte>`, `std::span` and `std::string` are byte lists. An
`std::error_code` is a value of one of the three categories the library creates
or compares, or any other code a transport can report.
-/

namespace NetworkStack

abbrev Byte := UInt8
abbrev Bytes := List Byte

/-- Bytes of a literal; every literal of the source is ASCII. -/
def ascii (s : String) : Bytes := s.toList.map Char.toUInt8

/- A fact about every byte of a text is decided along the text, not over all bytes. -/
instance decidableForallMem {α : Type} (l : List α) (p : α → Prop) [DecidablePred p] :
    Decidable (∀ a ∈ l, p a) :=
  List.decidableBAll p l

inductive Error where
  | NO_ERROR
  | CONNECTION_REFUSED
  | CONNECTION_TIMEOUT
  | CONNECTION_LOST
  | CONNECTION_ESTABLISHMENT_FAILED
  | SOCKET_CREATE_FAILED
  | DNS_RESOLUTION_FAILED
  | READ_FAILED
  | WRITE_FAILED
  | TIMEOUT
  | PROTOCOL_ERROR
  | TLS_HANDSHAKE_FAILED
  | TLS_VALIDATION_FAILED
  | TLS_CERT_LOAD_FAILURE
  | SERVER_LISTEN_FAILED
  | SERVER_ACCEPT_FAILED
  | OPTION_ERROR
  | INTERNAL_ERROR
  deriving DecidableEq, Repr

inductive AsioError where
  | eof
  | not_connected
  | operation_aborted
  | connection_reset
  | broken_pipe
  deriving DecidableEq, Repr

inductive Errc where
  | invalid_argument
  | io_error
  | protocol_error
  | result_out_of_range
  deriving DecidableEq, Repr

inductive ErrorCode where
  | network (e : Error)
  | asio (e : AsioError)
  | errc (e : Errc)
  | other (category value : ℕ)
  deriving DecidableEq, Repr

end NetworkStack
