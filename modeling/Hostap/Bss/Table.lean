import Hostap.Lib.Octets
import Mathlib.Logic.Function.Basic

/-!
# The BSS table of a station

`wpa_supplicant` keeps what its scans find in the table of `wpa_supplicant/bss.c`. An entry is a block of
memory that is linked into two lists, `bss` in the order of the updates and `bss_id` in the order of the
identifiers, and that is pointed to from outside: from the array `last_scan_res` of the entries of the last
round, from `current_bss`, and from the work queued on the radio that will connect to it.

An entry is known here by its address. A block is read through `deref`, which fails on a block that was
freed; the allocator may return any address at which there is no block, and may move a block it is asked to
make larger.

Two things are left out that nothing here reads: the notifications of what changed in an entry, and the
fields of an entry that only these and the selection of a network look at.
-/

namespace Hostap

open Octets

/-! ## Time and elements -/

/-- `struct os_reltime`. -/
structure OsReltime where
  sec : Int := 0
  usec : Int := 0
  deriving DecidableEq, Repr

/-- `os_reltime_before()`. -/
def osReltimeBefore (a b : OsReltime) : Bool :=
  a.sec < b.sec || (a.sec == b.sec && a.usec < b.usec)

/-- `calculate_update_time()`. -/
def calculateUpdateTime (fetchTime : OsReltime) (ageMs : Nat) : OsReltime :=
  let sec := fetchTime.sec - (ageMs / 1000 : Nat)
  let usec : Int := (ageMs % 1000 * 1000 : Nat)
  if fetchTime.usec < usec then
    { sec := sec - 1, usec := fetchTime.usec + 1000000 - usec }
  else
    { sec, usec := fetchTime.usec - usec }

def elementsOf : Nat → Bytes → List Bytes
  | 0, _ => []
  | fuel + 1, ies =>
    let len := 2 + (ies.getD 1 0).toNat
    if ies.length ≤ 1 ∨ ies.length < len then
      []
    else
      ies.take len :: elementsOf fuel (ies.drop len)

/-- `get_ie()`. -/
def getIe (ies : Bytes) (eid : UInt8) : Option Bytes :=
  (elementsOf ies.length ies).find? fun e => e.getD 0 0 == eid

def isVendorIe (vendorType : Bytes) (e : Bytes) : Bool :=
  e.getD 0 0 == 221 && 4 ≤ (e.getD 1 0).toNat && slice e 2 4 == vendorType

/-- `wpa_bss_get_vendor_ie()` and `wpa_scan_get_vendor_ie()`, which search in the same way. -/
def getVendorIe (ies vendorType : Bytes) : Option Bytes :=
  (elementsOf ies.length ies).find? (isVendorIe vendorType)

/-- `wpa_bss_get_vendor_ie_multi()`. -/
def getVendorIeMulti (ies vendorType : Bytes) : Option Bytes :=
  let buf := ((elementsOf ies.length ies).filter (isVendorIe vendorType)).flatMap (·.drop 6)
  if buf.isEmpty then none else some buf

/-- `P2P_IE_VENDOR_TYPE`. -/
def p2pIeVendorType : Bytes := [0x50, 0x6f, 0x9a, 0x09]

/-- `WPS_IE_VENDOR_TYPE`. -/
def wpsIeVendorType : Bytes := [0x00, 0x50, 0xf2, 0x04]

/-- `P2P_WILDCARD_SSID`. -/
def p2pWildcardSsid : Bytes := [0x44, 0x49, 0x52, 0x45, 0x43, 0x54, 0x2d]

/-- `SSID_MAX_LEN`. -/
abbrev ssidMaxLen : Nat := 32

/-! ## The table -/

abbrev Ptr := Nat

/-- `struct wpa_bss`, as far as the table reads it. -/
structure WpaBss where
  id : UInt32
  scanMissCount : UInt32 := 0
  lastUpdateIdx : UInt32
  flags : UInt32
  bssid : Bytes
  ssid : Bytes
  freq : Int
  lastUpdate : OsReltime
  ies : Bytes
  beaconIes : Bytes
  deriving DecidableEq, Repr

/-- `struct wpa_scan_res`. -/
structure WpaScanRes where
  flags : UInt32 := 0
  bssid : Bytes
  freq : Int := 0
  age : Nat := 0
  ies : Bytes
  beaconIes : Bytes := []
  deriving DecidableEq, Repr

/-- `WPA_BSS_ASSOCIATED` and `WPA_SCAN_ASSOCIATED`. -/
def flagAssociated (flags : UInt32) : Bool := flags &&& 32 != 0

/-- `wpa_scan_get_ie()`: the elements of the Beacon frame are searched when there are none of a Probe Response.
-/
def WpaScanRes.getIe (res : WpaScanRes) (eid : UInt8) : Option Bytes :=
  Hostap.getIe (if res.ies.length = 0 then res.beaconIes else res.ies) eid

/-- `wpa_bss_copy_res()`. -/
def WpaBss.copyRes (dst : WpaBss) (src : WpaScanRes) (fetchTime : OsReltime) : WpaBss :=
  { dst with
    flags := src.flags
    bssid := src.bssid
    freq := src.freq
    lastUpdate := calculateUpdateTime fetchTime src.age }

/-- The block `wpa_bss_add()` fills in. -/
def newBss (id lastUpdateIdx : UInt32) (ssid : Bytes) (res : WpaScanRes) (fetchTime : OsReltime) : WpaBss where
  id := id
  lastUpdateIdx := lastUpdateIdx
  flags := res.flags
  bssid := res.bssid
  ssid := ssid
  freq := res.freq
  lastUpdate := calculateUpdateTime fetchTime res.age
  ies := res.ies
  beaconIes := res.beaconIes

/-- `struct scan_info`, as far as the table reads it. An SSID without octets stands for any. -/
structure ScanInfo where
  aborted : Bool := false
  freqs : List Int := []
  ssids : List Bytes := []
  deriving DecidableEq, Repr

/-- `wpa_bss_included_in_scan()`. -/
def wpaBssIncludedInScan (bss : WpaBss) (info : Option ScanInfo) : Bool :=
  match info with
  | none => true
  | some info =>
    (info.freqs.isEmpty || info.freqs.contains bss.freq) &&
      (info.ssids.isEmpty || info.ssids.any fun s => s.isEmpty || s == bss.ssid)

/-- `struct wpa_ssid`: the SSID, empty when any will do, whether `key_mgmt` has WPS, and for which kind of
enrollee its EAP method is set up. -/
structure WpaSsid where
  ssid : Bytes := []
  keyMgmtWps : Bool := false
  wpsPbcEnrollee : Bool := false
  wpsPinEnrollee : Bool := false
  deriving DecidableEq, Repr

/-- `struct wpa_config`; `configP2p` says whether the program was built with P2P. -/
structure WpaConfig where
  ssid : List WpaSsid := []
  bssMaxCount : Nat := 200
  bssExpirationScanCount : UInt32 := 2
  ignoreOldScanRes : Bool := false
  configP2p : Bool := true
  deriving DecidableEq, Repr

/-- `struct wpa_connect_work`, as far as it points to an entry. -/
structure WpaConnectWork where
  bss : Option Ptr
  bssRemoved : Bool := false
  deriving DecidableEq, Repr

/-- What is told about the table. -/
inductive BssNotify
  | bssAdded (bssid : Bytes) (id : UInt32)
  | bssRemoved (bssid : Bytes) (id : UInt32)
  deriving DecidableEq, Repr

/-- What the table needs of the WPS parser. -/
structure WpsIeLib where
  wpsIsSelectedPbcRegistrar : Bytes → Bool
  /-- For the own address, with any enrollee allowed by version 1. -/
  wpsIsAddrAuthorized : Bytes → Bool

/-- `struct wpa_supplicant`, as far as the table reads it. `lastScanRes` is the used part of the array of
that name, which is not allocated while its size is zero; `smeConnect` and `connect` are the works of these
types on the radio.
-/
structure WpaSupplicant where
  heap : Ptr → Option WpaBss := fun _ => none
  bss : List Ptr := []
  bssId : List Ptr := []
  numBss : Nat := 0
  bssUpdateIdx : UInt32 := 0
  bssNextId : UInt32 := 0
  lastScanRes : List Ptr := []
  lastScanResSize : Nat := 0
  currentBss : Option Ptr := none
  smeConnect : Option WpaConnectWork := none
  connect : Option WpaConnectWork := none
  bssid : Bytes := zeros 6
  pendingBssid : Bytes := zeros 6
  bssidFilter : Option (List Bytes) := none
  conf : WpaConfig := {}
  scanTriggerTime : OsReltime := {}
  p2pGroupInterface : Bool := false
  lastScan : OsReltime := {}
  clearDriverScanCache : Bool := false
  notified : List BssNotify := []

/-- What the C code does not survive. -/
inductive BssFault
  /-- A block that was freed is read or written. -/
  | useAfterFree
  deriving DecidableEq, Repr

namespace WpaSupplicant

def deref (w : WpaSupplicant) (p : Ptr) : Except BssFault WpaBss :=
  match w.heap p with
  | none => .error .useAfterFree
  | some bss => .ok bss

def store (w : WpaSupplicant) (p : Ptr) (bss : WpaBss) : WpaSupplicant :=
  { w with heap := Function.update w.heap p (some bss) }

/-- `os_zalloc()`: an address at which there is no block, or none. -/
def osZalloc (w : WpaSupplicant) (alloc : Option Ptr) : Option Ptr :=
  alloc.filter fun p => (w.heap p).isNone

/-- `os_realloc()`: the block may stay where it is or move. -/
def osRealloc (w : WpaSupplicant) (old : Ptr) (alloc : Option Ptr) : Option Ptr :=
  alloc.filter fun p => p == old || (w.heap p).isNone

/-! ## Searching -/

def findEntry (w : WpaSupplicant) (test : Ptr → WpaBss → Except BssFault Bool) :
    List Ptr → Except BssFault (Option Ptr)
  | [] => .ok none
  | p :: ps => do
    let bss ← w.deref p
    let found ← test p bss
    if found then .ok (some p) else w.findEntry test ps

/-- `wpa_supplicant_filter_bssid_match()`. -/
def filterBssidMatch (w : WpaSupplicant) (bssid : Bytes) : Bool :=
  match w.bssidFilter with
  | none => true
  | some filter => filter.contains bssid

/-- `wpa_bss_get()`. -/
def wpaBssGet (w : WpaSupplicant) (bssid ssid : Bytes) : Except BssFault (Option Ptr) :=
  if !w.filterBssidMatch bssid then
    .ok none
  else
    w.findEntry (fun _ bss => .ok (bss.bssid == bssid && bss.ssid == ssid)) w.bss

/-- `wpa_bss_known()`. -/
def wpaBssKnown (w : WpaSupplicant) (bss : WpaBss) : Bool :=
  w.conf.ssid.any fun ssid => !ssid.ssid.isEmpty && ssid.ssid == bss.ssid

/-- `wpa_bss_is_wps_candidate()`. -/
def wpaBssIsWpsCandidate (lib : WpsIeLib) (w : WpaSupplicant) (bss : WpaBss) : Bool :=
  match getVendorIeMulti bss.ies wpsIeVendorType with
  | none => false
  | some wpsIe =>
    let pbc := lib.wpsIsSelectedPbcRegistrar wpsIe
    if !pbc && !lib.wpsIsAddrAuthorized wpsIe then
      false
    else
      match w.conf.ssid.find? fun ssid => ssid.keyMgmtWps && (ssid.ssid.isEmpty || ssid.ssid == bss.ssid) with
      | none => false
      | some ssid => if pbc then ssid.wpsPbcEnrollee else ssid.wpsPinEnrollee

/-- `wpa_bss_in_use()`. -/
def wpaBssInUse (w : WpaSupplicant) (p : Ptr) : Except BssFault Bool := do
  let bss ← w.deref p
  let inUse := bss.bssid != zeros 6 && (bss.bssid == w.bssid || bss.bssid == w.pendingBssid)
  if w.currentBss = some p then
    .ok true
  else
    match w.currentBss with
    | none => .ok inUse
    | some cur => do
      let current ← w.deref cur
      if bss.ssid ≠ current.ssid then .ok false else .ok inUse

/-! ## Removing entries -/

/-- The part of `wpa_bss_update_pending_connect()` on the work it finds. -/
def updateConnectWork (old : Ptr) (new : Option Ptr) (cwork : WpaConnectWork) : WpaConnectWork :=
  if cwork.bss ≠ some old then
    cwork
  else
    { bss := new, bssRemoved := cwork.bssRemoved || new.isNone }

/-- `wpa_bss_update_pending_connect()`: one work is looked at, which is the one of SME when there is one. -/
def wpaBssUpdatePendingConnect (w : WpaSupplicant) (old : Ptr) (new : Option Ptr) : WpaSupplicant :=
  { w with
    smeConnect := w.smeConnect.map (updateConnectWork old new)
    connect := if w.smeConnect.isSome then w.connect else w.connect.map (updateConnectWork old new) }

/-- `wpa_bss_remove()` once the entry has been read. -/
def removed (w : WpaSupplicant) (p : Ptr) (bss : WpaBss) : WpaSupplicant :=
  let w := { w with lastScanRes := w.lastScanRes.erase p }
  let w := w.wpaBssUpdatePendingConnect p none
  { w with
    bss := w.bss.erase p
    bssId := w.bssId.erase p
    numBss := w.numBss - 1
    notified := .bssRemoved bss.bssid bss.id :: w.notified
    heap := Function.update w.heap p none }

/-- `wpa_bss_remove()`. -/
def wpaBssRemove (w : WpaSupplicant) (p : Ptr) : Except BssFault WpaSupplicant := do
  let bss ← w.deref p
  .ok (w.removed p bss)

/-- `wpa_bss_remove_oldest_unknown()`. -/
def wpaBssRemoveOldestUnknown (lib : WpsIeLib) (w : WpaSupplicant) : Except BssFault (Option WpaSupplicant) :=
    do
  let oldest ← w.findEntry (fun _ bss => .ok (!w.wpaBssKnown bss && !wpaBssIsWpsCandidate lib w bss)) w.bss
  match oldest with
  | none => .ok none
  | some p => do
    let w ← w.wpaBssRemove p
    .ok (some w)

/-- `wpa_bss_remove_oldest()`. -/
def wpaBssRemoveOldest (lib : WpsIeLib) (w : WpaSupplicant) : Except BssFault (Option WpaSupplicant) := do
  let unknown ← wpaBssRemoveOldestUnknown lib w
  match unknown with
  | some w => .ok (some w)
  | none => do
    let oldest ← w.findEntry (fun p _ => do
      let inUse ← w.wpaBssInUse p
      .ok !inUse) w.bss
    match oldest with
    | none => .ok none
    | some p => do
      let w ← w.wpaBssRemove p
      .ok (some w)

/-! ## Adding and updating entries -/

/-- The part of `wpa_bss_add()` that makes room for one more entry. -/
def makeRoom (lib : WpsIeLib) (w : WpaSupplicant) : Except BssFault WpaSupplicant :=
  if w.numBss + 1 > w.conf.bssMaxCount then do
    let evicted ← wpaBssRemoveOldest lib w
    match evicted with
    | some w => .ok w
    | none => .ok { w with conf := { w.conf with bssMaxCount := w.numBss + 1 } }
  else
    .ok w

/-- `wpa_bss_add()`: the entry is there before another one has to go for it. -/
def wpaBssAdd (lib : WpsIeLib) (w : WpaSupplicant) (ssid : Bytes) (res : WpaScanRes) (fetchTime : OsReltime)
    (alloc : Option Ptr) : Except BssFault (WpaSupplicant × Option Ptr) :=
  match w.osZalloc alloc with
  | none => .ok (w, none)
  | some p => do
    let bss := newBss w.bssNextId w.bssUpdateIdx ssid res fetchTime
    let w := { w with bssNextId := w.bssNextId + 1 }
    let w := w.store p bss
    let w ← w.makeRoom lib
    .ok ({ w with
      bss := w.bss ++ [p]
      bssId := w.bssId ++ [p]
      numBss := w.numBss + 1
      notified := .bssAdded bss.bssid bss.id :: w.notified }, some p)

/-- An entry is put in the place of another one: all that points to the old block is made to point to the new
one. -/
def relocate (w : WpaSupplicant) (old new : Ptr) (bss : WpaBss) : WpaSupplicant :=
  let w := { w with
    heap := Function.update (Function.update w.heap old none) new (some bss)
    lastScanRes := w.lastScanRes.replace old new
    currentBss := if w.currentBss = some old then some new else w.currentBss }
  let w := w.wpaBssUpdatePendingConnect old (some new)
  { w with bssId := w.bssId.replace old new }

/-- `wpa_bss_update()`. An entry seen twice in a round is left as it is when the first result looks more
current. -/
def wpaBssUpdate (w : WpaSupplicant) (p : Ptr) (res : WpaScanRes) (fetchTime : OsReltime) (alloc : Option Ptr) :
    Except BssFault (WpaSupplicant × Ptr) := do
  let bss ← w.deref p
  let moreCurrent := flagAssociated bss.flags || (!flagAssociated res.flags &&
    !osReltimeBefore bss.lastUpdate (calculateUpdateTime fetchTime res.age))
  if bss.lastUpdateIdx = w.bssUpdateIdx ∧ moreCurrent then
    .ok (w, p)
  else
    let bss : WpaBss := { bss.copyRes res fetchTime with scanMissCount := 0, lastUpdateIdx := w.bssUpdateIdx }
    let fresh : WpaBss := { bss with ies := res.ies, beaconIes := res.beaconIes }
    let w := { w with bss := w.bss.erase p }
    if w.conf.configP2p ∧ (getVendorIe bss.ies p2pIeVendorType).isSome ∧
        (getVendorIe res.ies p2pIeVendorType).isNone then
      -- the Probe Response of a P2P GO to a station that does not ask for P2P
      .ok ({ w.store p bss with bss := w.bss ++ [p] }, p)
    else if res.ies.length + res.beaconIes.length ≤ bss.ies.length + bss.beaconIes.length then
      .ok ({ w.store p fresh with bss := w.bss ++ [p] }, p)
    else
      match w.osRealloc p alloc with
      | none => .ok ({ w.store p bss with bss := w.bss ++ [p] }, p)
      | some new => .ok ({ w.relocate p new fresh with bss := w.bss ++ [new] }, new)

/-! ## An update round -/

/-- `wpa_bss_update_start()`. -/
def wpaBssUpdateStart (w : WpaSupplicant) : WpaSupplicant :=
  { w with bssUpdateIdx := w.bssUpdateIdx + 1, lastScanRes := [] }

/-- The first part of `wpa_bss_update_scan_res()`: the SSID, or the Mesh ID, under which a result goes into the
table. -/
def scanResSsid (w : WpaSupplicant) (res : WpaScanRes) (fetchTime : OsReltime) : Option Bytes :=
  if w.conf.ignoreOldScanRes ∧ osReltimeBefore (calculateUpdateTime fetchTime res.age) w.scanTriggerTime then
    none
  else
    match res.getIe 0 with
    | none => none
    | some ssid =>
      let p2p := getVendorIe res.ies p2pIeVendorType
      if ssidMaxLen < (ssid.getD 1 0).toNat then
        none
      else if w.conf.configP2p ∧ p2p.isNone ∧ w.p2pGroupInterface then
        none
      else if p2p.isSome ∧ ssid.drop 2 = p2pWildcardSsid then
        none
      else
        match res.getIe 114 with
        | none => some (ssid.drop 2)
        | some mesh => if (mesh.getD 1 0).toNat ≤ ssidMaxLen then some (mesh.drop 2) else some (ssid.drop 2)

/-- The last part of `wpa_bss_update_scan_res()`. The array is made larger when it is full, if there is memory.
-/
def addToScanRes (w : WpaSupplicant) (p : Ptr) (grow : Bool) : WpaSupplicant :=
  if w.lastScanResSize ≤ w.lastScanRes.length then
    if !grow then
      w
    else
      { w with
        lastScanResSize := if w.lastScanResSize = 0 then 32 else w.lastScanResSize * 2
        lastScanRes := w.lastScanRes ++ [p] }
  else
    { w with lastScanRes := w.lastScanRes ++ [p] }

/-- `wpa_bss_update_scan_res()`. -/
def wpaBssUpdateScanRes (lib : WpsIeLib) (w : WpaSupplicant) (res : WpaScanRes) (fetchTime : OsReltime)
    (alloc : Option Ptr) (grow : Bool) : Except BssFault WpaSupplicant :=
  match w.scanResSsid res fetchTime with
  | none => .ok w
  | some ssid => do
    let old ← w.wpaBssGet res.bssid ssid
    match old with
    | none => do
      let (w, added) ← wpaBssAdd lib w ssid res fetchTime alloc
      match added with
      | none => .ok w
      | some p => .ok (w.addToScanRes p grow)
    | some p => do
      let (w, p) ← w.wpaBssUpdate p res fetchTime alloc
      if w.lastScanRes.contains p then .ok w else .ok (w.addToScanRes p grow)

/-- The loop of `wpa_bss_update_end()`: entries that were searched for and not seen expire. -/
def expireBss (info : Option ScanInfo) (w : WpaSupplicant) : List Ptr → Except BssFault WpaSupplicant
  | [] => .ok w
  | p :: ps => do
    let bss ← w.deref p
    let inUse ← w.wpaBssInUse p
    if inUse ∨ ¬ wpaBssIncludedInScan bss info then
      expireBss info w ps
    else
      let missed := if bss.lastUpdateIdx < w.bssUpdateIdx then bss.scanMissCount + 1 else bss.scanMissCount
      let w := w.store p { bss with scanMissCount := missed }
      if w.conf.bssExpirationScanCount ≤ missed then do
        let w ← w.wpaBssRemove p
        expireBss info w ps
      else
        expireBss info w ps

/-- `wpa_bss_update_end()`. -/
def wpaBssUpdateEnd (w : WpaSupplicant) (info : Option ScanInfo) (newScan : Bool) (now : OsReltime) :
    Except BssFault WpaSupplicant :=
  let w := { w with lastScan := now }
  if info.any (·.aborted) ∨ ¬ newScan then
    .ok w
  else
    expireBss info w w.bss

/-- The loop of `wpa_bss_flush_by_age()`: it ends at the first unused entry that is not too old. -/
def flushOlder (t : OsReltime) (w : WpaSupplicant) : List Ptr → Except BssFault WpaSupplicant
  | [] => .ok w
  | p :: ps => do
    let bss ← w.deref p
    let inUse ← w.wpaBssInUse p
    if inUse then
      flushOlder t w ps
    else if osReltimeBefore bss.lastUpdate t then do
      let w ← w.wpaBssRemove p
      flushOlder t w ps
    else
      .ok w

/-- `wpa_bss_flush_by_age()`. -/
def wpaBssFlushByAge (w : WpaSupplicant) (age : Int) (now : OsReltime) : Except BssFault WpaSupplicant :=
  flushOlder { now with sec := now.sec - age } w w.bss

/-- The loop of `wpa_bss_flush()`. -/
def flushUnused (w : WpaSupplicant) : List Ptr → Except BssFault WpaSupplicant
  | [] => .ok w
  | p :: ps => do
    let inUse ← w.wpaBssInUse p
    if inUse then
      flushUnused w ps
    else do
      let w ← w.wpaBssRemove p
      flushUnused w ps

/-- `wpa_bss_flush()`. -/
def wpaBssFlush (w : WpaSupplicant) : Except BssFault WpaSupplicant :=
  let w := { w with clearDriverScanCache := true }
  flushUnused w w.bss

end WpaSupplicant

/-! ## Runs -/

/-- What happens to the table and around it. The results of the allocator are part of the event. -/
inductive BssEvent
  | updateStart
  | updateScanRes (res : WpaScanRes) (fetchTime : OsReltime) (alloc : Option Ptr) (grow : Bool)
  | updateEnd (info : Option ScanInfo) (newScan : Bool) (now : OsReltime)
  | flushByAge (age : Int) (now : OsReltime)
  | flush
  /-- The configuration changes, but `bss_max_count` is not lowered. -/
  | configure (conf : WpaConfig)
  | setBssidFilter (filter : Option (List Bytes))
  | scanTriggered (now : OsReltime)
  | setBssids (bssid pendingBssid : Bytes)
  /-- `current_bss` is set to an entry of the table, or to none. -/
  | setCurrentBss (p : Option Ptr)
  /-- `sme_authenticate()` queues work for an entry of the table in the place of its previous one. -/
  | smeAuthenticate (p : Ptr)
  /-- `wpa_supplicant_associate()` queues work for an entry of the table, or for none, unless there is some. -/
  | associate (p : Option Ptr)
  /-- The work on the radio is done. -/
  | connectWorkDone (sme : Bool)
  deriving DecidableEq, Repr

namespace WpaSupplicant

def step (lib : WpsIeLib) (w : WpaSupplicant) : BssEvent → Except BssFault WpaSupplicant
  | .updateStart => .ok w.wpaBssUpdateStart
  | .updateScanRes res fetchTime alloc grow => wpaBssUpdateScanRes lib w res fetchTime alloc grow
  | .updateEnd info newScan now => w.wpaBssUpdateEnd info newScan now
  | .flushByAge age now => w.wpaBssFlushByAge age now
  | .flush => w.wpaBssFlush
  | .configure conf =>
    .ok { w with conf := { conf with bssMaxCount := max w.conf.bssMaxCount conf.bssMaxCount } }
  | .setBssidFilter filter => .ok { w with bssidFilter := filter }
  | .scanTriggered now => .ok { w with scanTriggerTime := now }
  | .setBssids bssid pendingBssid => .ok { w with bssid, pendingBssid }
  | .setCurrentBss p => .ok (if ∀ q ∈ p, q ∈ w.bss then { w with currentBss := p } else w)
  | .smeAuthenticate p => .ok (if p ∈ w.bss then { w with smeConnect := some { bss := some p } } else w)
  | .associate p =>
    .ok (if w.connect.isNone ∧ ∀ q ∈ p, q ∈ w.bss then { w with connect := some { bss := p } } else w)
  | .connectWorkDone sme => .ok (if sme then { w with smeConnect := none } else { w with connect := none })

end WpaSupplicant

end Hostap
