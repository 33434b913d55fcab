import NetworkStack.Core.ErrorCodes
import NetworkStack.Lib.SortedAssoc

/-!
# Tickets (protocol/Ticket.h, TicketContext.h, TicketSerializer.h)

The ticket record both peers exchange and the view of it a handler gets. The
progress callback of a context does nothing in the code and is left out.
-/

namespace NetworkStack

inductive TicketType where
  | SHORT
  | LONG
  deriving DecidableEq, Repr

inductive TicketStatus where
  | PENDING
  | RUNNING
  | COMPLETED
  | FAILED
  | CANCELLED
  deriving DecidableEq, Repr

def ticket_type_to_string : TicketType → Bytes
  | .SHORT => ascii "short"
  | .LONG => ascii "long"

def ticket_status_to_string : TicketStatus → Bytes
  | .PENDING => ascii "pending"
  | .RUNNING => ascii "running"
  | .COMPLETED => ascii "completed"
  | .FAILED => ascii "failed"
  | .CANCELLED => ascii "cancelled"

/- `std::unordered_map<std::string, std::string>`. Nothing in the library depends on
its iteration order, so one order stands for all. -/
structure StringMap where
  entries : List (Bytes × Bytes)
  sorted : SortedAssoc.Sorted entries
  deriving DecidableEq, Repr

def StringMap.empty : StringMap := ⟨[], List.Pairwise.nil⟩

def StringMap.insert (m : StringMap) (key value : Bytes) : StringMap :=
  ⟨SortedAssoc.insert key value m.entries, SortedAssoc.sorted_insert m.sorted⟩

def StringMap.ofList (entries : List (Bytes × Bytes)) : StringMap :=
  ⟨SortedAssoc.ofList entries, SortedAssoc.sorted_ofList entries⟩

theorem StringMap.ofList_entries (m : StringMap) : StringMap.ofList m.entries = m := by
  obtain ⟨entries, sorted⟩ := m
  simp only [StringMap.ofList, SortedAssoc.ofList_sorted sorted]

structure TicketMetadata where
  data : StringMap
  deriving DecidableEq, Repr

/-- Milliseconds have a 64 bit count; `int` has 32 bits. -/
structure TicketInfo where
  ticket_id : Bytes
  type : TicketType
  status : TicketStatus
  command : Bytes
  metadata : TicketMetadata
  timeout : Int64
  progress_percent : Option Int32
  progress_msg : Option Bytes
  payload : Option Bytes
  result : Option Bytes
  error : Option Bytes
  deriving DecidableEq, Repr

/-- The timeout crosses the wire as an `int`. -/
def TicketInfo.wire (ticket : TicketInfo) : TicketInfo :=
  { ticket with timeout := ticket.timeout.toInt32.toInt64 }

structure TicketContext where
  ticket_id : Bytes
  type : TicketType
  command : Bytes
  payload : Bytes
  metadata : StringMap
  timeout : Int64
  deriving DecidableEq, Repr

/- `none` from `serialize` is an exception that leaves the function. -/
structure TicketSerializer where
  serialize : TicketInfo → Option Bytes
  deserialize : Bytes → Except ErrorCode TicketInfo

end NetworkStack
