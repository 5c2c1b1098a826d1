import Mathlib

/-!
# The login socket of realmd

`AuthSocket` with its command handlers. `OnRead` looks at the first byte of the input buffer and
calls the handler of that command if the status is the one the command needs; `command` is one turn
of its loop. What a handler reads besides (the database, the configuration, the clock, random
numbers, and what lies in memory behind a number that is compared) is its environment.

SHA-1, the modular power and the token of a secret are functions of `Crypto`.
-/

namespace TwowCore.Realmd

/-- A string of bytes. -/
abbrev Bytes := List UInt8

/-- The functions of the cryptographic library. -/
structure Crypto where
  sha1 : Bytes → Bytes
  sha1_length : ∀ bytes, (sha1 bytes).length = 20
  modExp : ℕ → ℕ → ℕ → ℕ
  /-- `GenerateToken` of a secret at a time -/
  generateToken : Bytes → ℤ → UInt32

section BigNumber

/-- `BigNumber::SetBinary`: the low byte comes first. -/
def setBinary (bytes : Bytes) : ℕ := Nat.ofDigits 256 (bytes.map UInt8.toNat)

/-- `BigNumber::AsByteArray`, without leading zeros: it is as long as the number needs. -/
def asByteArray (n : ℕ) : Bytes := (Nat.digits 256 n).map UInt8.ofNat

/-- `AsByteArray` with a minimal size. -/
def asByteArrayMin (n size : ℕ) : Bytes :=
  asByteArray n ++ List.replicate (size - (asByteArray n).length) 0

/-- What `memcmp` sees of the first bytes of a number with something behind it in memory. -/
def bytesInMemory (n size : ℕ) (behind : Bytes) : Bytes := (asByteArray n ++ behind).take size

/-- `BigNumber::AsDecStr`. -/
def asDecStr (n : ℕ) : List ℕ := if n = 0 then [0] else (Nat.digits 10 n).reverse

/-- What `memcmp` sees of a decimal string: the digits, the zero that ends it (10 here), and
something behind it. -/
def decStrInMemory (n size : ℕ) (behind : List ℕ) : List ℕ :=
  (asDecStr n ++ 10 :: behind).take size

/-- The prime `N` of the protocol. -/
def srpN : ℕ := 0x894B645E89E1535BBDAD5B8B290650530801B18EBFBF5E8FAB3C82872A3E9BB7

/-- The generator `g`. -/
def srpG : ℕ := 7

end BigNumber

/-- `eStatus`. -/
inductive Status where
  | challenge
  | logonProof
  | reconProof
  | patch
  | authed
  | closed
  deriving DecidableEq, Repr

/-- `eAuthCmd`, the commands a client sends. -/
inductive AuthCmd where
  | authLogonChallenge
  | authLogonProof
  | authReconnectChallenge
  | authReconnectProof
  | realmList
  | xferAccept
  | xferResume
  | xferCancel
  deriving DecidableEq, Repr

/-- The command of a byte. -/
def AuthCmd.ofByte (cmd : UInt8) : Option AuthCmd :=
  if cmd = 0x00 then some .authLogonChallenge
  else if cmd = 0x01 then some .authLogonProof
  else if cmd = 0x02 then some .authReconnectChallenge
  else if cmd = 0x03 then some .authReconnectProof
  else if cmd = 0x10 then some .realmList
  else if cmd = 0x32 then some .xferAccept
  else if cmd = 0x33 then some .xferResume
  else if cmd = 0x34 then some .xferCancel
  else none

/-- The status a command needs, from the table of `OnRead`. -/
def AuthCmd.status : AuthCmd → Status
  | authLogonChallenge => .challenge
  | authLogonProof => .logonProof
  | authReconnectChallenge => .challenge
  | authReconnectProof => .reconProof
  | realmList => .authed
  | xferAccept => .patch
  | xferResume => .patch
  | xferCancel => .patch

/-- The results a client is told. -/
inductive AuthResult where
  | success
  | failBanned
  | failUnknownAccount
  | failIncorrectPassword
  | failNoTime
  | failDbBusy
  | failVersionInvalid
  | failVersionUpdate
  | failSuspended
  | failParentControl
  deriving DecidableEq, Repr

/-- `LockFlag`. -/
def ipLock : UInt32 := 0x01
def fixedPin : UInt32 := 0x02
def totp : UInt32 := 0x04
def alwaysEnforce : UInt32 := 0x08
def geoCountry : UInt32 := 0x10
def geoCity : UInt32 := 0x20

/-- A number stored as a hexadecimal string. -/
structure HexString where
  length : ℕ
  value : ℕ
  deriving DecidableEq, Repr

/-- A row of the table `account`. -/
structure AccountRow where
  shaPassHash : ℕ
  id : UInt32
  locked : UInt32
  lastIp : Bytes
  v : HexString
  s : HexString
  security : Bytes
  emailVerif : Bool
  geolockPin : UInt32
  joindate : ℕ
  rank : UInt8
  active : UInt8
  deriving DecidableEq, Repr

/-- `RealmBuildInfo`. -/
structure RealmBuildInfo where
  windowsHash : Bytes
  macHash : Bytes
  deriving DecidableEq, Repr

/-- What a handler reads outside the connection. -/
structure AuthEnv where
  escapeString : Bytes → Bytes
  -- the database
  ipBanned : Bool
  recentLogins : Option ℤ
  account : Bytes → Option AccountRow
  negativeCoins : UInt32 → Bool
  /-- the account is banned, for ever or not -/
  accountBanned : UInt32 → Option Bool
  /-- an address is excepted from the PIN, and the exception has expired or not -/
  twofactorAllowed : UInt32 → Option Bool
  geoChanged : Bool
  geoPinWritten : Bool
  -- the configuration
  networkCN : Bool
  reqEmailVerification : Bool
  reqEmailSince : ℤ
  forcePinAccountRank : ℤ
  strictVersionCheck : Bool
  minRealmListDelay : ℤ
  findBuildInfo : UInt16 → Option RealmBuildInfo
  /-- the size of the patch file for a build, if there is one -/
  patchFile : UInt16 → Option ℤ
  patchSize : ℤ
  patchHandlerOpens : Bool
  proxyPassIp : Bool
  /-- the address and the length of a proxy header -/
  proxyHeader : Bytes → Option (Bytes × ℕ)
  -- the clock and the random numbers
  now : ℤ
  randS : ℕ
  randB : ℕ
  randGridSeed : UInt32
  randSalt : ℕ
  randReconnect : ℕ
  -- memory behind the numbers that are compared
  behindM : Bytes
  behindHash : List ℕ
  behindClientHash : List ℕ

/-- The part of `sAuthLogonChallenge_C` that is used. -/
structure LogonChallenge where
  build : UInt16
  platform : Bytes
  os : Bytes
  name : Bytes
  deriving DecidableEq, Repr

/-- `sAuthLogonProof_C_1_11`. -/
structure LogonProof where
  a : Bytes
  m1 : Bytes
  crcHash : Bytes
  numberOfKeys : UInt8
  securityFlags : UInt8
  deriving DecidableEq, Repr

/-- `PINData`. -/
structure PINData where
  salt : Bytes
  hash : Bytes
  deriving DecidableEq, Repr

/-- `sAuthReconnectProof_C`. -/
structure ReconnectProof where
  r1 : Bytes
  r2 : Bytes
  r3 : Bytes
  numberOfKeys : UInt8
  deriving DecidableEq, Repr

/-- An entry of `keyCache`, with its key. -/
structure CachedKey where
  safelogin : Bytes
  key : ℕ
  accountId : UInt32
  deriving DecidableEq, Repr

/-- What the client is sent. -/
inductive Reply where
  | logonChallenge (results : List AuthResult) (b s : ℕ) (pin : Option (UInt32 × ℕ))
  | logonProof (result : AuthResult)
  | logonProofOk (m2 : Bytes)
  | xferInitiate
  | reconnectChallenge (proof : ℕ)
  | reconnectProof (result : AuthResult)
  | realmList (accountId : UInt32)
  deriving DecidableEq, Repr

/-- What a challenge that is awaiting its proof was about. -/
inductive Challenge where
  | logon (safelogin : Bytes) (row : AccountRow) (promptPin : Bool)
  | reconnect (entry : CachedKey)
  deriving DecidableEq, Repr

/-- The account a challenge has bound. -/
def Challenge.accountId : Challenge → UInt32
  | logon _ row _ => row.id
  | reconnect entry => entry.accountId

/-- What the check of a PIN finds when it is made: the time, and what lies behind the two decimal strings. -/
structure PinEnv where
  now : ℤ
  behindHash : List ℕ
  behindClientHash : List ℕ
  deriving DecidableEq, Repr

/-- A proof a connection has read in full. -/
inductive Proof where
  | logon (lp : LogonProof) (pin : Option PINData) (pinEnv : PinEnv)
  | reconnect (lp : ReconnectProof)
  deriving DecidableEq, Repr

/-- A connection. The last fields are a record of what it has been through: the challenges and proofs
it has read in full, what its challenge was about, its last proof, and what it was sent. -/
structure AuthSocket where
  inputBuffer : Bytes
  remoteAddress : Bytes
  proxyIpReceived : Bool
  closed : Bool
  status : Status
  login : Bytes
  safelogin : Bytes
  build : UInt16
  os : Bytes
  platform : Bytes
  promptPin : Bool
  lockFlags : UInt32
  securityInfo : Bytes
  lastIP : Bytes
  geoUnlockPIN : UInt32
  gridSeed : UInt32
  serverSecuritySalt : ℕ
  s : ℕ
  v : ℕ
  b : ℕ
  B : ℕ
  K : ℕ
  reconnectProof : ℕ
  accountId : UInt32
  lastRealmListRequest : ℤ
  patchOpen : Bool
  challenges : ℕ
  proofs : ℕ
  challenge : Option Challenge
  proof : Option Proof
  sent : List Reply
  deriving DecidableEq, Repr

namespace AuthSocket

/-- The constructor, with the address `OnAccept` has found. -/
def new (remoteAddress : Bytes) : AuthSocket where
  inputBuffer := []
  remoteAddress := remoteAddress
  proxyIpReceived := false
  closed := false
  status := .challenge
  login := []
  safelogin := []
  build := 0
  os := []
  platform := []
  promptPin := false
  lockFlags := 0
  securityInfo := []
  lastIP := []
  geoUnlockPIN := 0
  gridSeed := 0
  serverSecuritySalt := 0
  s := 0
  v := 0
  b := 0
  B := 0
  K := 0
  reconnectProof := 0
  accountId := 0
  lastRealmListRequest := 0
  patchOpen := false
  challenges := 0
  proofs := 0
  challenge := none
  proof := none
  sent := []

/-- `recv_skip`. -/
def skip (c : AuthSocket) (len : ℕ) : AuthSocket := { c with inputBuffer := c.inputBuffer.drop len }

/-- `send`. -/
def send (c : AuthSocket) (reply : Reply) : AuthSocket := { c with sent := c.sent ++ [reply] }

/-- A reply to a challenge that goes no further. -/
def refuse (c : AuthSocket) (results : List AuthResult) : AuthSocket :=
  c.send (.logonChallenge results 0 0 none)

variable (C : Crypto) (env : AuthEnv)

section Challenge

/-- A part of a packet. -/
def field (packet : Bytes) (offset len : ℕ) : Bytes := (packet.drop offset).take len

/-- A `uint16` at an offset. -/
def uint16At (packet : Bytes) (offset : ℕ) : UInt16 :=
  UInt16.ofNat (setBinary (field packet offset 2))

/-- The fields of `sAuthLogonChallenge_C`; the name ends at its first zero. -/
def parseChallenge (packet : Bytes) : LogonChallenge where
  build := uint16At packet 11
  platform := field packet 13 4
  os := field packet 17 4
  name := (packet.drop 34).takeWhile (· ≠ 0)

/-- The size of `sAuthLogonChallenge_C`. -/
def challengeSize : ℕ := 35

/-- The beginning of both challenge handlers: the packet, if all of it is there, and the connection,
which is closed unless it says otherwise later. -/
def readChallenge (c : AuthSocket) : Option LogonChallenge × AuthSocket :=
  if c.inputBuffer.length < challengeSize then (none, c)
  else
    let remaining := (uint16At c.inputBuffer 2).toNat
    if remaining < challengeSize - 4 ∨ (c.skip 4).inputBuffer.length < remaining then
      (none, c.skip 4)
    else
      let ch := parseChallenge (c.inputBuffer.take (4 + remaining))
      (some ch, { (c.skip 4).skip remaining with
        status := .closed
        login := ch.name
        safelogin := env.escapeString ch.name
        build := ch.build
        challenges := c.challenges + 1 })

/-- `s` and `v` for a logon: those of the database, or new ones (`_SetVSFields`). -/
def verifierOf (row : AccountRow) : ℕ × ℕ :=
  if row.v.length ≠ 64 ∨ row.s.length ≠ 64 then
    let digest := (asByteArrayMin row.shaPassHash 20).reverse
    let x := setBinary (C.sha1 (asByteArray env.randS ++ digest))
    (env.randS, C.modExp srpG x srpN)
  else (row.s.value, row.v.value)

/-- The lock flags of an account; from some rank on a PIN is enforced. -/
def lockFlagsOf (row : AccountRow) : UInt32 :=
  if env.forcePinAccountRank ≤ row.rank.toNat then
    let flags := if row.locked &&& alwaysEnforce = 0 then row.locked ||| alwaysEnforce
      else row.locked
    if flags &&& totp ≠ totp ∧ flags &&& fixedPin ≠ fixedPin then flags ||| fixedPin else flags
  else row.locked

/-- Whether the client has to enter a PIN. -/
def promptsPin (c : AuthSocket) (row : AccountRow) (locked : Bool) : Bool :=
  if env.forcePinAccountRank ≤ row.rank.toNat ∨ c.lockFlags = fixedPin then
    match env.twofactorAllowed row.id with
    | some expired => expired
    | none => true
  else if (!locked ∧ c.lockFlags &&& alwaysEnforce = alwaysEnforce) ∨ c.geoUnlockPIN ≠ 0 then true
  else locked

/-- The end of `_HandleLogonChallenge`: the server's part of the key exchange is sent. -/
def startLogon (c : AuthSocket) (row : AccountRow) (locked : Bool) (results : List AuthResult) :
    AuthSocket :=
  let sv := verifierOf C env row
  let B := (sv.2 * 3 + C.modExp srpG env.randB srpN) % srpN
  let prompt := c.promptsPin env row locked
  { c with
    s := sv.1
    v := sv.2
    b := env.randB
    B := B
    promptPin := prompt
    gridSeed := if prompt then env.randGridSeed else c.gridSeed
    serverSecuritySalt := if prompt then env.randSalt else c.serverSecuritySalt
    accountId := row.id
    status := .logonProof
    challenge := some (.logon c.safelogin row prompt)
    sent := c.sent ++ [.logonChallenge (results ++ [.success]) B sv.1
      (if prompt then some (env.randGridSeed, env.randSalt) else none)] }

/-- A second factor is set up. -/
def hasSecondFactor (flags : UInt32) : Bool := flags &&& fixedPin ≠ 0 || flags &&& totp ≠ 0

/-- The checks of the account: the address and the bans. -/
def checkLocks (c : AuthSocket) (row : AccountRow) : AuthSocket :=
  let locked := c.lockFlags &&& ipLock ≠ 0 && c.lastIP ≠ c.remoteAddress
  let results : List AuthResult :=
    if locked && (c.lockFlags &&& totp ≠ totp && c.lockFlags &&& fixedPin ≠ fixedPin) then
      [.failSuspended]
    else []
  if !locked || hasSecondFactor c.lockFlags then
    match env.accountBanned row.id with
    | some permanent => c.refuse (results ++ [if permanent then .failBanned else .failSuspended])
    | none => c.startLogon C env row locked results
  else c.refuse results

/-- The checks of the row of the account. -/
def checkAccount (c : AuthSocket) (row : AccountRow) : AuthSocket :=
  if (env.reqEmailVerification &&
      (env.reqEmailSince ≤ 0 || env.reqEmailSince ≤ row.joindate)) && !row.emailVerif then
    c.refuse [.failParentControl]
  else
    let c' := { c with
      lockFlags := lockFlagsOf env row
      securityInfo := row.security
      lastIP := row.lastIp
      geoUnlockPIN := row.geolockPin }
    if row.active = 0 then c'.refuse [.failIncorrectPassword]
    else if env.negativeCoins row.id then c'.refuse [.failNoTime]
    else c'.checkLocks C env row

/-- The checks before the account is looked up. -/
def preChecks (c : AuthSocket) : List AuthResult :=
  (if c.build = 7070 && env.networkCN then [.failVersionInvalid] else []) ++
    if env.ipBanned then [.failDbBusy] else []

/-- There were too many logins from the address. -/
def throttled : Bool :=
  match env.recentLogins with
  | some count => 15 ≤ count + 1
  | none => false

/-- `_HandleLogonChallenge` after the packet is read. -/
def checkLogon (c : AuthSocket) : AuthSocket :=
  if c.preChecks env ≠ [] then c.refuse (c.preChecks env)
  else if throttled env then c.refuse [.failDbBusy]
  else
    match env.account c.safelogin with
    | none => c.refuse [.failUnknownAccount]
    | some row => c.checkAccount C env row

/-- `_HandleLogonChallenge`. -/
def handleLogonChallenge (c : AuthSocket) : Bool × AuthSocket :=
  match c.readChallenge env with
  | (none, c') => (false, c')
  | (some ch, c') => (true, { c' with os := ch.os, platform := ch.platform }.checkLogon C env)

/-- The entry of the cache for a login. -/
def cachedKey (cache : List CachedKey) (safelogin : Bytes) : Option CachedKey :=
  cache.find? fun entry => entry.safelogin = safelogin

/-- `_HandleReconnectChallenge`. -/
def handleReconnectChallenge (cache : List CachedKey) (c : AuthSocket) : Bool × AuthSocket :=
  match c.readChallenge env with
  | (none, c') => (false, c')
  | (some _, c') =>
      match cachedKey cache c'.safelogin with
      | none => (false, { c' with closed := true })
      | some entry =>
          (true, { c' with
            K := entry.key
            accountId := entry.accountId
            status := .reconProof
            reconnectProof := env.randReconnect
            challenge := some (.reconnect entry)
            sent := c'.sent ++ [.reconnectChallenge env.randReconnect] })

end Challenge

section Pin

/-- The grid of the digits as the client shows it. -/
def remapGrid : ℕ → ℕ → List ℕ → List ℕ
  | 0, _, _ => []
  | left + 1, seed, grid =>
      grid.getD (seed % (left + 1)) 0 ::
        remapGrid left (seed / (left + 1)) (grid.eraseIdx (seed % (left + 1)))

/-- `VerifyPinData`. It compares the first 20 characters of the decimal strings. -/
def verifyPinData (c : AuthSocket) (pin : UInt32) (clientData : PINData) : Bool :=
  let pinDigits := (Nat.digits 10 pin.toNat).reverse
  if pinDigits.length < 4 ∨ 10 < pinDigits.length then false
  else
    let grid := remapGrid 10 c.gridSeed.toNat (List.range 10)
    let pinBytes := pinDigits.map fun digit => UInt8.ofNat (grid.idxOf digit + 0x30)
    let inner := setBinary (C.sha1 (asByteArray c.serverSecuritySalt ++ pinBytes))
    let hash := setBinary (C.sha1 (clientData.salt ++ asByteArray inner))
    decStrInMemory hash 20 env.behindHash ==
      decStrInMemory (setBinary clientData.hash) 20 env.behindClientHash

/-- `ValidateToken`: the token of this half minute, of the last or of the next. -/
def validateToken (c : AuthSocket) (data : PINData) : Bool :=
  c.verifyPinData C env (C.generateToken c.securityInfo (env.now - 30)) data ||
    c.verifyPinData C env (C.generateToken c.securityInfo env.now) data ||
    c.verifyPinData C env (C.generateToken c.securityInfo (env.now + 30)) data

/-- The PIN that was entered is the one the flags ask for. For `TOTP` the code compares with the PIN
0, which `VerifyPinData` never accepts. -/
def pinMatches (c : AuthSocket) (data : PINData) : Bool :=
  if c.lockFlags &&& fixedPin = fixedPin then c.validateToken C env data
  else if c.lockFlags &&& totp = totp then c.verifyPinData C env 0 data
  else if c.geoUnlockPIN ≠ 0 then c.verifyPinData C env c.geoUnlockPIN data
  else false

/-- `pinResult`. -/
def pinResult (c : AuthSocket) (pin : Option PINData) : Bool :=
  if c.promptPin then
    match pin with
    | none => false
    | some data => c.pinMatches C env data
  else true

end Pin

section Proof

/-- Every second byte, from the first on. -/
def evenBytes : Bytes → Bytes
  | [] => []
  | [byte] => [byte]
  | byte :: _ :: rest => byte :: evenBytes rest

/-- Two strings of bytes, byte by byte in turn. -/
def interleave : Bytes → Bytes → Bytes
  | left :: lefts, right :: rights => left :: right :: interleave lefts rights
  | _, _ => []

/-- The session key for the client's `A`. -/
def sessionKey (c : AuthSocket) (A : ℕ) : ℕ :=
  let u := setBinary (C.sha1 (asByteArray A ++ asByteArray c.B))
  let S := C.modExp (A * C.modExp c.v u srpN) c.b srpN
  let t := (asByteArrayMin S 32).take 32
  setBinary (interleave (C.sha1 (evenBytes t)) (C.sha1 (evenBytes t.tail)))

/-- The digest the client's `M1` is compared with. -/
def serverM (c : AuthSocket) (A : ℕ) : Bytes :=
  let t3 := setBinary (List.zipWith (· ^^^ ·) (C.sha1 (asByteArray srpN))
    (C.sha1 (asByteArray srpG)))
  C.sha1 (asByteArray t3 ++ C.sha1 c.login ++ asByteArray c.s ++ asByteArray A ++
    asByteArray c.B ++ asByteArray (c.sessionKey C A))

/-- `VerifyVersion`. -/
def verifyVersion (c : AuthSocket) (a versionProof : Bytes) (isReconnect : Bool) : Bool :=
  let zeros : Bytes := List.replicate 20 0
  -- the strings of the platform and the system are stored backwards
  let win : Bytes := [110, 105, 87, 0]
  let osx : Bytes := [88, 83, 79, 0]
  let x86 : Bytes := [54, 56, 120, 0]
  let ppc : Bytes := [67, 80, 80, 0]
  if !env.strictVersionCheck then true
  else if !((c.platform = x86 || c.platform = ppc) && (c.os = win || c.os = osx)) then false
  else if isReconnect then versionProof = C.sha1 (a ++ zeros)
  else
    match env.findBuildInfo c.build with
    | none => false
    | some info =>
        let versionHash := if c.os = win then info.windowsHash else info.macHash
        versionHash = zeros || versionProof = C.sha1 (a ++ versionHash)

/-- `GeographicalLockCheck`. -/
def geographicalLockCheck (c : AuthSocket) : Bool :=
  if c.lastIP = [] ∨ c.lastIP = c.remoteAddress then false
  else if c.lockFlags &&& geoCity = 0 ∧ c.lockFlags &&& geoCountry = 0 then false
  else env.geoChanged

/-- The fields of `sAuthLogonProof_C_1_11`, after the byte of the command. -/
def parseLogonProof (packet : Bytes) : LogonProof where
  a := field packet 1 32
  m1 := field packet 33 20
  crcHash := field packet 53 20
  numberOfKeys := packet.getD 73 0
  securityFlags := packet.getD 74 0

/-- The fields of `PINData`. -/
def parsePin (packet : Bytes) : PINData where
  salt := field packet 0 16
  hash := field packet 16 20

/-- The beginning of `_HandleLogonProof`: the proof and the PIN, if they are there in full. -/
def readLogonProof (c : AuthSocket) : Option (LogonProof × Option PINData) × AuthSocket :=
  if c.inputBuffer.length < 75 then (none, c)
  else
    let lp := parseLogonProof c.inputBuffer
    if lp.securityFlags = 0 then (some (lp, none), c.skip 75)
    else if (c.skip 75).inputBuffer.length < 36 then (none, c.skip 75)
    else (some (lp, some (parsePin (c.skip 75).inputBuffer)), (c.skip 75).skip 36)

/-- The client's version is not known: it is sent a patch, if there is one. -/
def sendPatch (c : AuthSocket) : Bool × AuthSocket :=
  if c.patchOpen then (false, c)
  else
    match env.patchFile c.build with
    | none => (true, c.refuse [.failVersionInvalid])
    | some size =>
        if size = -1 then (false, { c with patchOpen := true, closed := true })
        else
          (true, { c with
            patchOpen := true
            status := .patch
            sent := c.sent ++ [.logonProof .failVersionUpdate, .xferInitiate] })

/-- What follows a proof that is right. -/
def acceptLogon (c : AuthSocket) (lp : LogonProof) (cache : List CachedKey) :
    AuthSocket × List CachedKey :=
  if !c.verifyVersion C env lp.a lp.crcHash false then
    (c.send (.logonProof .failVersionInvalid), cache)
  else if c.geoUnlockPIN = 0 ∧ c.geographicalLockCheck env then
    if env.geoPinWritten then (c.send (.logonProof .failParentControl), cache)
    else (c.send (.logonProof .failDbBusy), cache)
  else
    let A := setBinary lp.a
    let m2 := C.sha1 (asByteArray A ++ asByteArray (setBinary (c.serverM C A)) ++ asByteArray c.K)
    ({ c with status := .authed, sent := c.sent ++ [.logonProofOk m2] },
      ⟨c.safelogin, c.K, c.accountId⟩ :: cache)

/-- What `memcmp` compares the client's `M1` with. -/
def comparedM (c : AuthSocket) (lp : LogonProof) : Bytes :=
  bytesInMemory (setBinary (c.serverM C (setBinary lp.a))) 20 env.behindM

/-- `_HandleLogonProof` after the packet is read. -/
def checkProof (c : AuthSocket) (lp : LogonProof) (pin : Option PINData) (cache : List CachedKey) :
    Bool × AuthSocket × List CachedKey :=
  if (env.findBuildInfo c.build).isNone then
    let result := c.sendPatch env
    (result.1, result.2, cache)
  else if setBinary lp.a = 0 ∨ setBinary lp.a % srpN = 0 then (false, c, cache)
  else
    let c' := { c with K := c.sessionKey C (setBinary lp.a) }
    if c.comparedM C env lp = lp.m1 ∧ c.pinResult C env pin then
      let result := c'.acceptLogon C env lp cache
      (true, result.1, result.2)
    else (true, c'.send (.logonProof .failUnknownAccount), cache)

/-- `_HandleLogonProof`. -/
def handleLogonProof (cache : List CachedKey) (c : AuthSocket) :
    Bool × AuthSocket × List CachedKey :=
  match c.readLogonProof with
  | (none, c') => (false, c', cache)
  | (some (lp, pin), c') =>
      { c' with
        status := .closed
        proofs := c.proofs + 1
        proof := some (.logon lp pin ⟨env.now, env.behindHash, env.behindClientHash⟩) }.checkProof C env lp
          pin cache

/-- The fields of `sAuthReconnectProof_C`. -/
def parseReconnectProof (packet : Bytes) : ReconnectProof where
  r1 := field packet 1 16
  r2 := field packet 17 20
  r3 := field packet 37 20
  numberOfKeys := packet.getD 57 0

/-- The digest `R2` is compared with. -/
def reconnectDigest (c : AuthSocket) (r1 : Bytes) : Bytes :=
  C.sha1 (c.login ++ asByteArray (setBinary r1) ++ asByteArray c.reconnectProof ++ asByteArray c.K)

/-- `_HandleReconnectProof` after the packet is read. -/
def checkReconnect (c : AuthSocket) (lp : ReconnectProof) : Bool × AuthSocket :=
  if c.login = [] ∨ asByteArray c.reconnectProof = [] ∨ asByteArray c.K = [] then (false, c)
  else if c.reconnectDigest C lp.r1 = lp.r2 then
    if !c.verifyVersion C env lp.r1 lp.r3 true then
      (true, c.send (.reconnectProof .failVersionInvalid))
    else (true, { c with status := .authed, sent := c.sent ++ [.reconnectProof .success] })
  else (false, { c with closed := true })

/-- `_HandleReconnectProof`. -/
def handleReconnectProof (c : AuthSocket) : Bool × AuthSocket :=
  if c.inputBuffer.length < 58 then (false, c)
  else
    let lp := parseReconnectProof c.inputBuffer
    { c.skip 58 with
      status := .closed
      proofs := c.proofs + 1
      proof := some (.reconnect lp) }.checkReconnect C env lp

end Proof

section Authed

/-- `_HandleRealmList`. -/
def handleRealmList (c : AuthSocket) : Bool × AuthSocket :=
  if c.inputBuffer.length < 5 then (false, c)
  else
    let c' := c.skip 5
    if c'.accountId = 0 then (false, c')
    else if env.now - c'.lastRealmListRequest < env.minRealmListDelay then
      (false, { c' with lastRealmListRequest := env.now })
    else
      (true, { c' with
        lastRealmListRequest := env.now
        sent := c'.sent ++ [.realmList c'.accountId] })

/-- `InitPatch`. -/
def initPatch (c : AuthSocket) : AuthSocket :=
  { c with patchOpen := false, closed := c.closed || !env.patchHandlerOpens }

/-- `_HandleXferAccept`. -/
def handleXferAccept (c : AuthSocket) : Bool × AuthSocket := (true, (c.skip 1).initPatch env)

/-- `_HandleXferResume`. -/
def handleXferResume (c : AuthSocket) : Bool × AuthSocket :=
  if c.inputBuffer.length < 9 then (false, c)
  else
    let start := setBinary (field c.inputBuffer 1 8)
    let c' := (c.skip 1).skip 8
    if !c'.patchOpen || env.patchSize = -1 || env.patchSize ≤ start then
      (false, { c' with closed := true })
    else (true, c'.initPatch env)

/-- `_HandleXferCancel`. -/
def handleXferCancel (c : AuthSocket) : Bool × AuthSocket :=
  (true, { c.skip 1 with closed := true })

end Authed

section Command

/-- The handler of a command. -/
def handler (cache : List CachedKey) (c : AuthSocket) :
    AuthCmd → Bool × AuthSocket × List CachedKey
  | .authLogonChallenge => ((c.handleLogonChallenge C env).1, (c.handleLogonChallenge C env).2, cache)
  | .authLogonProof => c.handleLogonProof C env cache
  | .authReconnectChallenge =>
      ((c.handleReconnectChallenge env cache).1, (c.handleReconnectChallenge env cache).2, cache)
  | .authReconnectProof =>
      ((c.handleReconnectProof C env).1, (c.handleReconnectProof C env).2, cache)
  | .realmList => ((c.handleRealmList env).1, (c.handleRealmList env).2, cache)
  | .xferAccept => ((c.handleXferAccept env).1, (c.handleXferAccept env).2, cache)
  | .xferResume => ((c.handleXferResume env).1, (c.handleXferResume env).2, cache)
  | .xferCancel => (c.handleXferCancel.1, c.handleXferCancel.2, cache)

/-- `ReadProxyHeader`, where the configuration asks for it; `none` when `OnRead` returns for it. -/
def readProxy (c : AuthSocket) : Option AuthSocket :=
  if env.proxyPassIp && !c.proxyIpReceived then
    if c.inputBuffer.length < 6 then none
    else
      match env.proxyHeader c.inputBuffer with
      | none => none
      | some (address, len) =>
          some { c.skip len with remoteAddress := address, proxyIpReceived := true }
  else some c

/-- `close_connection`, when a handler has failed. -/
def closeUnless (ok : Bool) (c : AuthSocket) : AuthSocket :=
  if ok then c else { c with closed := true }

/-- The rest of a turn of the loop: the first byte is looked up in the table. -/
def dispatch (cache : List CachedKey) (c : AuthSocket) : AuthSocket × List CachedKey :=
  match c.inputBuffer.head?.bind AuthCmd.ofByte with
  | none => (c, cache)
  | some cmd =>
      if cmd.status ≠ c.status then (c, cache)
      else
        let result := c.handler C env cache cmd
        (closeUnless result.1 result.2.1, result.2.2)

/-- One turn of the loop of `OnRead`. -/
def command (cache : List CachedKey) (c : AuthSocket) : AuthSocket × List CachedKey :=
  match c.readProxy env with
  | none => (c, cache)
  | some c' => c'.dispatch C env cache

end Command

end AuthSocket

end TwowCore.Realmd
