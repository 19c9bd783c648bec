import Relacon.L2Tasks.EventCounter
import Relacon.L2Tasks.Watchdog
import Relacon.L3Protocol.Response

/-!
# The ADU command processor

The state of the firmware, the twelve command handlers, the table that selects
one by command prefix, and `AduProtocolProcessCommand`.

A handler gets the memory from its argument pointer on and reads it with the C
string functions. Handlers that take one decimal index share `handlerIndexed`;
the debounce and watchdog settings keep their own bodies, since they differ from
the others (no `*endptr` check) and from each other (only one of the two setters
reports success). `BoardDebugPrint` output is left out.
-/
namespace Relacon.L3
open Relacon.Core Relacon.L1 Relacon.L2

/-- The static variables of the firmware, and the output register of the relay port. -/
structure Firmware where
  gpioAOdr : UInt16
  events : EventCounters
  watchdog : Watchdog
  response : Response
  deriving DecidableEq, Repr

def Firmware.relays (fw : Firmware) : UInt8 := boardReadRelays fw.gpioAOdr

def Firmware.writeRelays (fw : Firmware) (v : UInt8) : Firmware :=
  { fw with gpioAOdr := boardWriteRelays v }

/-! ## Settings tables -/

def MAX_CMD_STR_SIZE : Nat := 5
def NUM_RELAYS : UInt32 := 8
def INPUT_PORT_NUM_PINS : UInt32 := 4

/-- mirrors src/AduProtocol.c:72-78 -/
abbrev DEBOUNCE_SETTING_NUM_SETTINGS : Nat := 3

/-- mirrors src/AduProtocol.c:81-86 -/
def DEBOUNCE_TIMES_US : Vector UInt32 DEBOUNCE_SETTING_NUM_SETTINGS := #v[10000, 1000, 100]

/-- mirrors src/AduProtocol.c:89-96 -/
abbrev WATCHDOG_SETTING_NUM_SETTINGS : Nat := 4

/-- mirrors src/AduProtocol.c:99-105 -/
def WATCHDOG_TIMES_US : Vector UInt32 WATCHDOG_SETTING_NUM_SETTINGS :=
  #v[WATCHDOG_TIMEOUT_DISABLED, 1000000, 10000000, 60000000]

/-- The initial settings, as entries of their enumerations. -/
def DEBOUNCE_SETTING_1MS : Fin DEBOUNCE_SETTING_NUM_SETTINGS := ⟨1, by decide⟩
def WATCHDOG_SETTING_DISABLED : Fin WATCHDOG_SETTING_NUM_SETTINGS := ⟨0, by decide⟩

/-- The debounce time of setting `i`. -/
def debounceTimeOf (i : Fin DEBOUNCE_SETTING_NUM_SETTINGS) : UInt32 := DEBOUNCE_TIMES_US[i]

/-- The watchdog timeout of setting `i`. -/
def watchdogTimeOf (i : Fin WATCHDOG_SETTING_NUM_SETTINGS) : UInt32 := WATCHDOG_TIMES_US[i]

/-! ## Input ports -/

/-- mirrors src/AduProtocol.c:64-69 -/
inductive InputPort where
  | undefined | a | b
  deriving DecidableEq, Repr

/-- mirrors src/AduProtocol.c:115-128 -/
def charToInputPort (inputPortChar : UInt8) : InputPort :=
  let inputPortChar := toupper inputPortChar
  if inputPortChar = 'A'.toUInt8 then .a
  else if inputPortChar = 'B'.toUInt8 then .b
  else .undefined

/-- The 4-bit value of a port, or `0xff`.
mirrors src/AduProtocol.c:139-168 -/
def getInputPortValue (r : Readings) (inputPortChar : UInt8) : UInt8 :=
  match charToInputPort inputPortChar with
  | .undefined => 0xff
  | .a => (boardReadDigitalInputs r &&& 0x0f) >>> 0
  | .b => (boardReadDigitalInputs r &&& 0xf0) >>> 4

/-! ## Handlers -/

/-- The handlers that take exactly one character, a decimal index below `bound`. -/
def handlerIndexed (bound : UInt32) (body : UInt32 → Firmware → Firmware) (fw : Firmware)
    (args : List UInt8) : Bool × Firmware :=
  if strlen args = 1 then
    let (index, endptr) := strtoul args
    if deref endptr = 0 ∧ index < bound then (true, body index fw) else (false, fw)
  else (false, fw)

/-- mirrors src/AduProtocol.c:231-278 -/
def handlerReadSinglePort (r : Readings) (fw : Firmware) (args : List UInt8) : Bool × Firmware :=
  let len := strlen args
  if 1 ≤ len ∧ len ≤ 2 then
    let portValue := getInputPortValue r (deref args)
    if portValue ≠ 0xff then
      if len = 2 then
        let (line, endptr) := strtoul args.tail
        if deref endptr = 0 ∧ line < INPUT_PORT_NUM_PINS then
          let value := if bitSet portValue line.toNat then 1 else 0
          (true, { fw with response := writeResponseBinary value 1 fw.response })
        else (false, fw)
      else
        (true, { fw with
          response := writeResponseBinary portValue INPUT_PORT_NUM_PINS.toNat fw.response })
    else (false, fw)
  else (false, fw)

/-- mirrors src/AduProtocol.c:290-312 -/
def handlerReadSinglePortDecimal (r : Readings) (fw : Firmware) (args : List UInt8) :
    Bool × Firmware :=
  if strlen args = 1 then
    let portValue := getInputPortValue r (deref args)
    if portValue ≠ 0xff then
      (true, { fw with
        response := writeResponseDecimal portValue.toUInt16 DEC_DIGITS_4_BIT fw.response })
    else (false, fw)
  else (false, fw)

/-- mirrors src/AduProtocol.c:325-339 -/
def handlerReadCombinedPortsDecimal (r : Readings) (fw : Firmware) (args : List UInt8) :
    Bool × Firmware :=
  if strlen args = 0 then
    (true, { fw with
      response := writeResponseDecimal (boardReadDigitalInputs r).toUInt16 DEC_DIGITS_8_BIT
        fw.response })
  else (false, fw)

/-- mirrors src/AduProtocol.c:349-373 -/
def handlerSetRelay (fw : Firmware) (args : List UInt8) : Bool × Firmware :=
  handlerIndexed NUM_RELAYS (fun relay fw => fw.writeRelays (setBit fw.relays relay.toNat)) fw args

/-- mirrors src/AduProtocol.c:383-406 -/
def handlerClearRelay (fw : Firmware) (args : List UInt8) : Bool × Firmware :=
  handlerIndexed NUM_RELAYS (fun relay fw => fw.writeRelays (clearBit fw.relays relay.toNat)) fw args

/-- mirrors src/AduProtocol.c:417-438 -/
def handlerWriteRelayPort (fw : Firmware) (args : List UInt8) : Bool × Firmware :=
  if strlen args ≤ 3 then
    let (portValue, endptr) := strtoul args
    if deref endptr = 0 ∧ portValue ≤ 255 then (true, fw.writeRelays portValue.toUInt8)
    else (false, fw)
  else (false, fw)

/-- mirrors src/AduProtocol.c:450-472 -/
def handlerReadSingleRelay (fw : Firmware) (args : List UInt8) : Bool × Firmware :=
  handlerIndexed NUM_RELAYS
    (fun relay fw => { fw with
      response := writeResponseBinary (if bitSet fw.relays relay.toNat then 1 else 0) 1 fw.response })
    fw args

/-- mirrors src/AduProtocol.c:484-498 -/
def handlerReadRelayPortDecimal (fw : Firmware) (args : List UInt8) : Bool × Firmware :=
  if strlen args = 0 then
    (true, { fw with response := writeResponseDecimal fw.relays.toUInt16 DEC_DIGITS_8_BIT fw.response })
  else (false, fw)

/-- The body shared by `REn` and `RCn`. -/
def readEventCounter (resetAfterRead : Bool) (index : UInt32) (fw : Firmware) : Firmware :=
  let (count, events) := eventCounterRead index.toUInt8 resetAfterRead fw.events
  { fw with events := events,
            response := writeResponseDecimal count DEC_DIGITS_16_BIT fw.response }

/-- mirrors src/AduProtocol.c:510-530 -/
def handlerReadEventCounter (fw : Firmware) (args : List UInt8) : Bool × Firmware :=
  handlerIndexed (UInt32.ofNat EVENT_COUNTER_NUM_COUNTERS) (readEventCounter false) fw args

/-- mirrors src/AduProtocol.c:543-563 -/
def handlerReadAndResetEventCounter (fw : Firmware) (args : List UInt8) : Bool × Firmware :=
  handlerIndexed (UInt32.ofNat EVENT_COUNTER_NUM_COUNTERS) (readEventCounter true) fw args

/-- The query loop of `DB` and `WD`: the first setting with the current value, if any. -/
def handlerQuery {n : Nat} (table : Vector UInt32 n) (current : UInt32) (fw : Firmware) :
    Bool × Firmware :=
  match table.toList.findIdx? (· == current) with
  | some i => (true, { fw with response := writeResponseDecimal (UInt16.ofNat i) 1 fw.response })
  | none => (false, fw)

/-- The setter does not look at `endptr`.
mirrors src/AduProtocol.c:576-611 -/
def handlerDebounceSetting (fw : Firmware) (args : List UInt8) : Bool × Firmware :=
  let len := strlen args
  if len = 0 then handlerQuery DEBOUNCE_TIMES_US (eventCounterDebounceTimeGet fw.events) fw
  else if len = 1 then
    let setting := (strtoul args).1
    if h : setting.toNat < DEBOUNCE_SETTING_NUM_SETTINGS then
      (true, { fw with events := eventCounterDebounceTimeSet DEBOUNCE_TIMES_US[setting.toNat] fw.events })
    else (false, fw)
  else (false, fw)

/-- The setter does not look at `endptr`, and leaves `success` false.
mirrors src/AduProtocol.c:624-658 -/
def handlerWatchdogSetting (fw : Firmware) (args : List UInt8) : Bool × Firmware :=
  let len := strlen args
  if len = 0 then handlerQuery WATCHDOG_TIMES_US (watchdogTimeoutGet fw.watchdog) fw
  else if len = 1 then
    let setting := (strtoul args).1
    if h : setting.toNat < WATCHDOG_SETTING_NUM_SETTINGS then
      (false, { fw with watchdog := watchdogTimeoutSet WATCHDOG_TIMES_US[setting.toNat] fw.watchdog })
    else (false, fw)
  else (false, fw)

/-! ## The command table -/

/-- The handler a table entry points to. -/
inductive HandlerFn where
  | setRelay | clearRelay | writeRelayPort | readSingleRelay | readRelayPortDecimal
  | readSinglePort | readSinglePortDecimal | readCombinedPortsDecimal
  | readEventCounter | readAndResetEventCounter | debounceSetting | watchdogSetting
  deriving DecidableEq, Repr

def HandlerFn.call (r : Readings) (fw : Firmware) (args : List UInt8) : HandlerFn → Bool × Firmware
  | .setRelay => handlerSetRelay fw args
  | .clearRelay => handlerClearRelay fw args
  | .writeRelayPort => handlerWriteRelayPort fw args
  | .readSingleRelay => handlerReadSingleRelay fw args
  | .readRelayPortDecimal => handlerReadRelayPortDecimal fw args
  | .readSinglePort => handlerReadSinglePort r fw args
  | .readSinglePortDecimal => handlerReadSinglePortDecimal r fw args
  | .readCombinedPortsDecimal => handlerReadCombinedPortsDecimal r fw args
  | .readEventCounter => handlerReadEventCounter fw args
  | .readAndResetEventCounter => handlerReadAndResetEventCounter fw args
  | .debounceSetting => handlerDebounceSetting fw args
  | .watchdogSetting => handlerWatchdogSetting fw args

/-- mirrors src/AduProtocol.c:664-685 -/
structure CommandProcessorEntry where
  commandPrefix : List UInt8
  handler : HandlerFn
  deriving DecidableEq, Repr

/-- `sizeof(prefix) - 1`. -/
def CommandProcessorEntry.commandPrefixLen (e : CommandProcessorEntry) : Nat := e.commandPrefix.length

/-- mirrors src/AduProtocol.c:698-722 -/
def ENTRIES : List CommandProcessorEntry :=
  [⟨ascii ['S', 'K'], .setRelay⟩,
   ⟨ascii ['R', 'K'], .clearRelay⟩,
   ⟨ascii ['M', 'K'], .writeRelayPort⟩,
   ⟨ascii ['R', 'P', 'K'], .readSingleRelay⟩,
   ⟨ascii ['P', 'K'], .readRelayPortDecimal⟩,
   ⟨ascii ['R', 'P'], .readSinglePort⟩,
   ⟨ascii ['P', 'A'], .readSinglePortDecimal⟩,
   ⟨ascii ['P', 'I'], .readCombinedPortsDecimal⟩,
   ⟨ascii ['R', 'E'], .readEventCounter⟩,
   ⟨ascii ['R', 'C'], .readAndResetEventCounter⟩,
   ⟨ascii ['D', 'B'], .debounceSetting⟩,
   ⟨ascii ['W', 'D'], .watchdogSetting⟩]

/-- The locals of the search loop. -/
structure Search where
  fw : Firmware
  args : List UInt8
  success : Bool
  handlerFound : Bool
  /-- ghost: the handler calls made, with their arguments -/
  calls : List (HandlerFn × List UInt8)

/-- One iteration of the search loop.
mirrors src/AduProtocol.c:744-755 -/
def searchStep (r : Readings) (s : Search) (entry : CommandProcessorEntry) : Search :=
  if s.handlerFound then s
  else if strncasecmp s.args entry.commandPrefix entry.commandPrefixLen = 0 then
    let args := s.args.drop entry.commandPrefixLen
    let (success, fw) := entry.handler.call r s.fw args
    { fw := fw, args := args, success := success, handlerFound := true,
      calls := s.calls ++ [(entry.handler, args)] }
  else s

def search (r : Readings) (fw : Firmware) (args : List UInt8) : Search :=
  ENTRIES.foldl (searchStep r)
    { fw := fw, args := args, success := false, handlerFound := false, calls := [] }

/-- `buf` is the memory from the command on; `len` is only used to bound the
length test. An over-long command leaves the stored response alone; every
command kicks the watchdog.
mirrors src/AduProtocol.c:727-767 -/
def aduProtocolProcessCommand (r : Readings) (buf : List UInt8) (len : Nat) (fw : Firmware) :
    Bool × Firmware :=
  let (success, fw) :=
    if strnlen buf len > MAX_CMD_STR_SIZE then (false, fw)
    else
      let s := search r { fw with response := fw.response.clear } buf
      (s.success, s.fw)
  (success, { fw with watchdog := watchdogKick r fw.watchdog })

end Relacon.L3
