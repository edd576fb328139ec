/-!
# Constants and structs of the shared header

The definitions of `encDec.h` that the helper, the server and the client have in
common. A C `char` is a byte, an array a list of its elements. The entry count of a
queue is a C `int` that the code decrements without a check, so it is an integer
here; the positions only ever take remainders of the size.
-/

namespace HelperChat

/-- `BUFFER_SIZE`: the length of every message buffer. -/
def bufferSize : Nat := 100

/-- `MAXIMUM_CONNECTED_CLIENTS`: the length of the server's client table. -/
def maximumConnectedClients : Nat := 6

/-- `MAX_THREADS`: how many decoder threads the helper starts for a queue. -/
def maxThreads : Nat := 6

/-- `structForQueueBoi`: a ring buffer of bytes. -/
structure StructForQueueBoi where
  values : List UInt8
  head : Nat
  tail : Nat
  countOfEntries : Int
  size : Nat
deriving DecidableEq

/-- `struct organizedClientData`: a connected client's socket and its name buffer. -/
structure OrganizedClientData where
  socket : Int
  name : List UInt8
deriving DecidableEq, Inhabited

end HelperChat
