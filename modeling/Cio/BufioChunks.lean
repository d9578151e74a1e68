import Cio.BufioLines

/-! What repeated calls of `read_string` return: the stream cut behind its delimiters, however the source splits it into
reads. The limit is only looked at before a refill, so a chunk that is longer is not always refused. -/

namespace Cio.Bufio

open Buffer List

/-- The size of the buffer, `capacity == 0 ? 1 : capacity`. -/
abbrev bufferSize (capacity : Nat) : Nat := if capacity = 0 then 1 else capacity

namespace Reader

/-! ### Chunks of a stream -/

variable {delimiter : UInt8} {limit n : Nat} {bytes : List UInt8}

variable {pieces : List (List UInt8)} {r next : Reader (chunked pieces)} {out : List UInt8}

def remaining (r : Reader (chunked pieces)) : List UInt8 := r.pending ++ (pieces.drop r.reads).flatten

end Reader

end Cio.Bufio
