import Mathlib.Logic.Function.Basic
import Relacon.Core.CString
import Relacon.Core.Packed

/-!
# The DFU file packer (`tools/mkdfu.py`)

`createDfu` wraps a firmware image into a DfuSe file: a file prefix, one target
with one element, the image, and a suffix with a CRC over everything before it.
The size fields count different spans, and the CRC is computed over a first
version of the suffix that is then overwritten in place.

`readDfu` is the DfuSe 1.1a layout on its own, for any number of targets and
elements. `createDfu_decodes`: what is written is read back completely, with the
sizes and the CRC it claims, for every image and address that fit 32 bits; every
other call raises before the output file is opened.
-/
namespace Relacon.Tools
open Relacon.Core

/-! ## Scripts -/

inductive PyError where
  | structError | fileNotFound
  deriving DecidableEq, Repr

/-- The contents of the files, and the files opened for writing so far. -/
structure Disk where
  files : String → Option (List UInt8)
  opened : List String

abbrev Script := ExceptT PyError (StateM Disk)

def Script.exec {α : Type} (m : Script α) (disk : Disk) : Except PyError α × Disk :=
  StateT.run (ExceptT.run m) disk

/-- `open(name, 'rb')` and `read`. -/
def readFile (name : String) : Script (List UInt8) := do
  match (← get).files name with
  | some data => pure data
  | none => throw .fileNotFound

/-- `open(name, 'wb')`: the file is created, or emptied. -/
def openWrite (name : String) : Script Unit :=
  modify fun disk =>
    { files := Function.update disk.files name (some []), opened := disk.opened ++ [name] }

def writeFile (name : String) (data : List UInt8) : Script Unit :=
  modify fun disk =>
    { disk with files := Function.update disk.files name ((disk.files name).map (· ++ data)) }

/-! ## The structures -/

/-- mirrors tools/mkdfu.py:37 (`'< 5s B I B'`) -/
def dfuPrefixStruct : List Field := [.bytes 5, .uint 1, .uint 4, .uint 1]

/-- mirrors tools/mkdfu.py:38 (`'< H H H H 3s B I'`) -/
def dfuSuffixStruct : List Field :=
  [.uint 2, .uint 2, .uint 2, .uint 2, .bytes 3, .uint 1, .uint 4]

/-- mirrors tools/mkdfu.py:39 (`'< 6s B I 255s I I'`) -/
def targetPrefixStruct : List Field := [.bytes 6, .uint 1, .uint 4, .bytes 255, .uint 4, .uint 4]

/-- mirrors tools/mkdfu.py:40 (`'< I I'`) -/
def imageElementStruct : List Field := [.uint 4, .uint 4]

def structPack (fs : List Field) (vs : List Value) : Except PyError (List UInt8) :=
  match pack fs vs with
  | some s => .ok s
  | none => .error .structError

def DFU_SE : List UInt8 := ascii ['D', 'f', 'u', 'S', 'e']
def UFD : List UInt8 := ascii ['U', 'F', 'D']
def TARGET : List UInt8 := ascii ['T', 'a', 'r', 'g', 'e', 't']

/-- mirrors tools/mkdfu.py:42-47 -/
def generateDfuPrefix (imageSize : Int) (numTargets : Int := 1) : Except PyError (List UInt8) :=
  structPack dfuPrefixStruct [.bytes DFU_SE, .int 1, .int imageSize, .int numTargets]

/-- mirrors tools/mkdfu.py:49-57 -/
def generateDfuSuffix (crc32 : Int) (fwver : Int := 0xffff) (vid : Int := 0xffff)
    (pid : Int := 0xffff) : Except PyError (List UInt8) :=
  structPack dfuSuffixStruct [.int fwver, .int pid, .int vid, .int 0x011a, .bytes UFD,
    .int (layoutSize dfuSuffixStruct), .int crc32]

/-- mirrors tools/mkdfu.py:59-73 -/
def generateTargetPrefix (targetSize : Int) (numElements : Int := 1) (alternateSetting : Int := 0)
    (name : Option (List UInt8) := none) : Except PyError (List UInt8) :=
  let name := name.getD []
  -- an empty name counts as no name
  let targetNamed : Int := if name = [] then 0 else 1
  let name := name ++ List.replicate (255 - name.length) 0
  structPack targetPrefixStruct [.bytes TARGET, .int alternateSetting, .int targetNamed,
    .bytes name, .int targetSize, .int numElements]

/-- mirrors tools/mkdfu.py:75-76 -/
def generateImageElement (startAddr dataSize : Int) : Except PyError (List UInt8) :=
  structPack imageElementStruct [.int startAddr, .int dataSize]

/-- mirrors tools/mkdfu.py:78-111 -/
def createDfu (addr : Int) (filenameBin filenameOut : String) : Script Unit := do
  let imageData ← readFile filenameBin
  let imageElementData ← MonadExcept.ofExcept (generateImageElement addr imageData.length)
  let targetPrefixData ← MonadExcept.ofExcept
    (generateTargetPrefix (imageElementData.length + imageData.length : Nat))
  let dfuPrefixData ← MonadExcept.ofExcept (generateDfuPrefix
    (layoutSize dfuPrefixStruct + targetPrefixData.length + imageElementData.length +
      imageData.length : Nat))
  -- the suffix with a CRC of 0, for its other fields
  let dfuSuffixData ← MonadExcept.ofExcept (generateDfuSuffix 0)
  let fullData := dfuPrefixData ++ targetPrefixData ++ imageElementData ++ imageData ++ dfuSuffixData
  let crc := crc32 (fullData.take (fullData.length - 4)) ^^^ 0xffffffff
  let dfuSuffixData ← MonadExcept.ofExcept (generateDfuSuffix crc.toNat)
  let fullData := fullData.take (fullData.length - dfuSuffixData.length) ++ dfuSuffixData
  openWrite filenameOut
  writeFile filenameOut fullData

/-! ## The DfuSe layout -/

structure DfuElement where
  address : Nat
  size : Nat
  data : List UInt8
  deriving DecidableEq, Repr

structure DfuTarget where
  signature : List UInt8
  alternateSetting : Nat
  named : Nat
  name : List UInt8
  size : Nat
  numElements : Nat
  elements : List DfuElement
  deriving DecidableEq, Repr

structure DfuFile where
  signature : List UInt8
  version : Nat
  imageSize : Nat
  numTargets : Nat
  targets : List DfuTarget
  device : Nat
  product : Nat
  vendor : Nat
  dfuVersion : Nat
  suffixSignature : List UInt8
  suffixLength : Nat
  crc : Nat
  deriving DecidableEq, Repr

def readElement : Reader DfuElement := do
  let address ← readUInt 4
  let size ← readUInt 4
  let data ← readBytes size
  pure { address, size, data }

def readTarget : Reader DfuTarget := do
  let signature ← readBytes 6
  let alternateSetting ← readUInt 1
  let named ← readUInt 4
  let name ← readBytes 255
  let size ← readUInt 4
  let numElements ← readUInt 4
  let elements ← readMany readElement numElements
  pure { signature, alternateSetting, named, name, size, numElements, elements }

def readDfu : Reader DfuFile := do
  let signature ← readBytes 5
  let version ← readUInt 1
  let imageSize ← readUInt 4
  let numTargets ← readUInt 1
  let targets ← readMany readTarget numTargets
  let device ← readUInt 2
  let product ← readUInt 2
  let vendor ← readUInt 2
  let dfuVersion ← readUInt 2
  let suffixSignature ← readBytes 3
  let suffixLength ← readUInt 1
  let crc ← readUInt 4
  pure { signature, version, imageSize, numTargets, targets, device, product, vendor, dfuVersion,
         suffixSignature, suffixLength, crc }

/-! ## What the generators write -/

def fileHeader (imageSize : Nat) : List UInt8 :=
  DFU_SE ++ (leBytes 1 1 ++ (leBytes 4 imageSize ++ leBytes 1 1))

def targetHeader (targetSize : Nat) : List UInt8 :=
  TARGET ++ (leBytes 1 0 ++ (leBytes 4 0 ++ (List.replicate 255 0 ++
    (leBytes 4 targetSize ++ leBytes 4 1))))

def elementHeader (addr size : Nat) : List UInt8 := leBytes 4 addr ++ leBytes 4 size

/-- The suffix up to its CRC. -/
def suffixHeader : List UInt8 :=
  leBytes 2 0xffff ++ (leBytes 2 0xffff ++ (leBytes 2 0xffff ++ (leBytes 2 0x011a ++
    (UFD ++ leBytes 1 16))))

theorem pack_size {n : Nat} (h : n < 2 ^ 32) :
    (Field.uint 4).pack (.int n) = some (leBytes 4 n) := Field.pack_uint rfl (by omega)

theorem pack_size_none {n : Nat} (h : ¬ n < 2 ^ 32) : (Field.uint 4).pack (.int n) = none :=
  Field.pack_uint_none (by omega)

section
variable {fs : List Field} {vs : List Value} {s : List UInt8}

theorem structPack_some (h : pack fs vs = some s) : structPack fs vs = .ok s := by
  rw [structPack, h]

theorem structPack_ite {p : Prop} [Decidable p] (h : pack fs vs = if p then some s else none) :
    structPack fs vs = if p then .ok s else .error .structError := by
  rw [structPack, h]
  by_cases hp : p
  · rw [if_pos hp, if_pos hp]
  · rw [if_neg hp, if_neg hp]

end

theorem generateImageElement_eq (addr : Int) (n : Nat) : generateImageElement addr n =
    if 0 ≤ addr ∧ addr < 2 ^ 32 ∧ n < 2 ^ 32 then .ok (elementHeader addr.toNat n)
    else .error .structError := by
  have hpack : pack imageElementStruct [.int addr, .int n] =
      if 0 ≤ addr ∧ addr < 2 ^ 32 ∧ n < 2 ^ 32 then some (elementHeader addr.toNat n) else none := by
    rw [imageElementStruct]
    by_cases ha : 0 ≤ addr ∧ addr < 2 ^ 32
    · have haddr : (Field.uint 4).pack (.int addr) = some (leBytes 4 addr.toNat) :=
        Field.pack_uint (Int.toNat_of_nonneg ha.1).symm (by omega)
      rw [pack_cons haddr]
      by_cases hn : n < 2 ^ 32
      · rw [pack_last (pack_size hn), if_pos ⟨ha.1, ha.2, hn⟩]
        rfl
      · rw [pack_cons_none (pack_size_none hn), if_neg (fun h => hn h.2.2)]
        rfl
    · have haddr : (Field.uint 4).pack (.int addr) = none := Field.pack_uint_none (by omega)
      rw [pack_cons_none haddr, if_neg (fun h => ha ⟨h.1, h.2.1⟩)]
  exact structPack_ite hpack

theorem generateTargetPrefix_eq (n : Nat) : generateTargetPrefix n =
    if n < 2 ^ 32 then .ok (targetHeader n) else .error .structError := by
  have hsig : (Field.bytes 6).pack (.bytes TARGET) = some TARGET := Field.pack_bytes rfl
  have halt : (Field.uint 1).pack (.int 0) = some (leBytes 1 0) := Field.pack_uint rfl (by decide)
  have hnamed : (Field.uint 4).pack (.int 0) = some (leBytes 4 0) := Field.pack_uint rfl (by decide)
  have hname : (Field.bytes 255).pack (.bytes (List.replicate 255 0)) = some (List.replicate 255 0) :=
    Field.pack_bytes List.length_replicate
  have hnum : (Field.uint 4).pack (.int 1) = some (leBytes 4 1) := Field.pack_uint rfl (by decide)
  have hpack : pack targetPrefixStruct [.bytes TARGET, .int 0, .int 0,
      .bytes (List.replicate 255 0), .int n, .int 1] =
      if n < 2 ^ 32 then some (targetHeader n) else none := by
    rw [targetPrefixStruct, pack_cons hsig, pack_cons halt, pack_cons hnamed, pack_cons hname]
    by_cases hn : n < 2 ^ 32
    · rw [pack_cons (pack_size hn), pack_last hnum, if_pos hn]
      rfl
    · rw [pack_cons_none (pack_size_none hn), if_neg hn]
      rfl
  simp only [generateTargetPrefix, Option.getD_none, if_true, List.nil_append, List.length_nil,
    Nat.sub_zero]
  exact structPack_ite hpack

theorem generateDfuPrefix_eq (n : Nat) : generateDfuPrefix n =
    if n < 2 ^ 32 then .ok (fileHeader n) else .error .structError := by
  have hsig : (Field.bytes 5).pack (.bytes DFU_SE) = some DFU_SE := Field.pack_bytes rfl
  have hone : (Field.uint 1).pack (.int 1) = some (leBytes 1 1) := Field.pack_uint rfl (by decide)
  have hpack : pack dfuPrefixStruct [.bytes DFU_SE, .int 1, .int n, .int 1] =
      if n < 2 ^ 32 then some (fileHeader n) else none := by
    rw [dfuPrefixStruct, pack_cons hsig, pack_cons hone]
    by_cases hn : n < 2 ^ 32
    · rw [pack_cons (pack_size hn), pack_last hone, if_pos hn]
      rfl
    · rw [pack_cons_none (pack_size_none hn), if_neg hn]
      rfl
  exact structPack_ite hpack

theorem generateDfuSuffix_eq (crc : UInt32) :
    generateDfuSuffix crc.toNat = .ok (suffixHeader ++ leBytes 4 crc.toNat) := by
  have hany : (Field.uint 2).pack (.int 0xffff) = some (leBytes 2 0xffff) :=
    Field.pack_uint rfl (by decide)
  have hver : (Field.uint 2).pack (.int 0x011a) = some (leBytes 2 0x011a) :=
    Field.pack_uint rfl (by decide)
  have hsig : (Field.bytes 3).pack (.bytes UFD) = some UFD := Field.pack_bytes rfl
  have hlen : (Field.uint 1).pack (.int (layoutSize dfuSuffixStruct)) = some (leBytes 1 16) :=
    Field.pack_uint rfl (by decide)
  have hpack : pack dfuSuffixStruct [.int 0xffff, .int 0xffff, .int 0xffff, .int 0x011a,
      .bytes UFD, .int (layoutSize dfuSuffixStruct), .int crc.toNat] =
      some (suffixHeader ++ leBytes 4 crc.toNat) := by
    rw [dfuSuffixStruct] at hlen ⊢
    rw [pack_cons hany, pack_cons hany, pack_cons hany, pack_cons hver, pack_cons hsig,
      pack_cons hlen, pack_last (pack_size crc.toNat_lt)]
    simp only [Option.map_some, suffixHeader, List.append_assoc]
  exact structPack_some hpack

/-! ## The file -/

/-- Everything before the CRC. -/
def dfuBody (addr : Nat) (image : List UInt8) : List UInt8 :=
  fileHeader (293 + image.length) ++ (targetHeader (8 + image.length) ++
    (elementHeader addr image.length ++ (image ++ suffixHeader)))

def dfuBytes (addr : Nat) (image : List UInt8) : List UInt8 :=
  dfuBody addr image ++ leBytes 4 (crcRegister (dfuBody addr image)).toNat

@[simp] theorem fileHeader_length (n : Nat) : (fileHeader n).length = 11 := by
  simp [fileHeader, DFU_SE, ascii]

@[simp] theorem targetHeader_length (n : Nat) : (targetHeader n).length = 274 := by
  simp only [targetHeader, TARGET, ascii, List.length_append, List.length_map, List.length_replicate,
    leBytes_length]
  rfl

@[simp] theorem elementHeader_length (addr n : Nat) : (elementHeader addr n).length = 8 := by
  simp [elementHeader]

@[simp] theorem suffixHeader_length : suffixHeader.length = 12 := by
  simp [suffixHeader, UFD, ascii]

@[simp] theorem dfuBody_length (addr : Nat) (image : List UInt8) :
    (dfuBody addr image).length = 305 + image.length := by
  simp only [dfuBody, List.length_append, fileHeader_length, targetHeader_length,
    elementHeader_length, suffixHeader_length]
  omega

/-! ## Running the script -/

section
variable {α β : Type} {m : Script α} {f : α → Script β} {disk disk' : Disk}

theorem exec_bind_ok {a : α} (h : m.exec disk = (.ok a, disk')) :
    Script.exec (m >>= f) disk = (f a).exec disk' := by
  simp only [Script.exec] at h ⊢
  rw [ExceptT.run_bind, StateT.run_bind, h]
  rfl

theorem exec_bind_error {e : PyError} (h : m.exec disk = (.error e, disk')) :
    Script.exec (m >>= f) disk = (.error e, disk') := by
  simp only [Script.exec] at h ⊢
  rw [ExceptT.run_bind, StateT.run_bind, h]
  rfl

theorem exec_ofExcept (r : Except PyError α) (disk : Disk) :
    Script.exec (MonadExcept.ofExcept r) disk = (r, disk) := by
  cases r <;> rfl

theorem exec_readFile {name : String} {data : List UInt8} (h : disk.files name = some data) :
    (readFile name).exec disk = (.ok data, disk) := by
  have hget : Script.exec (get : Script Disk) disk = (.ok disk, disk) := rfl
  rw [readFile, exec_bind_ok hget, h]
  rfl

/-- Writing a whole file. -/
def Disk.write (disk : Disk) (name : String) (data : List UInt8) : Disk where
  files := Function.update disk.files name (some data)
  opened := disk.opened ++ [name]

theorem exec_write (name : String) (data : List UInt8) (disk : Disk) :
    Script.exec (do openWrite name; writeFile name data) disk = (.ok (), disk.write name data) := by
  have hopen : (openWrite name).exec disk = (.ok (),
      { files := Function.update disk.files name (some []), opened := disk.opened ++ [name] }) := rfl
  rw [exec_bind_ok hopen]
  show (_, _) = _
  simp [Disk.write]

end

section
variable {disk : Disk} {filenameBin filenameOut : String} {image : List UInt8} {addr : Int}

/-- A slice up to `-k`, where the last `k` bytes are `b`. -/
theorem take_length_sub {k : Nat} {a b : List UInt8} (h : k = b.length) :
    (a ++ b).take ((a ++ b).length - k) = a := by
  subst h
  rw [List.length_append, Nat.add_sub_cancel, List.take_left]

theorem createDfu_ok (hread : disk.files filenameBin = some image) (ha : 0 ≤ addr ∧ addr < 2 ^ 32)
    (hn : 293 + image.length < 2 ^ 32) :
    (createDfu addr filenameBin filenameOut).exec disk =
      (.ok (), disk.write filenameOut (dfuBytes addr.toNat image)) := by
  have helement : generateImageElement addr image.length =
      .ok (elementHeader addr.toNat image.length) := by
    rw [generateImageElement_eq, if_pos ⟨ha.1, ha.2, by omega⟩]
  have htarget : generateTargetPrefix (8 + image.length : Nat) = .ok (targetHeader (8 + image.length)) := by
    rw [generateTargetPrefix_eq, if_pos (by omega)]
  have hheader : generateDfuPrefix (293 + image.length : Nat) =
      .ok (fileHeader (293 + image.length)) := by
    rw [generateDfuPrefix_eq, if_pos hn]
  have hsuffix : generateDfuSuffix 0 = .ok (suffixHeader ++ leBytes 4 0) := generateDfuSuffix_eq 0
  have hsize : layoutSize dfuPrefixStruct + 274 + 8 + image.length = 293 + image.length := by
    rw [show layoutSize dfuPrefixStruct = 11 from rfl]
  have hdata : fileHeader (293 + image.length) ++ targetHeader (8 + image.length) ++
      elementHeader addr.toNat image.length ++ image ++ (suffixHeader ++ leBytes 4 0) =
      dfuBody addr.toNat image ++ leBytes 4 0 := by
    simp only [dfuBody, List.append_assoc]
  rw [createDfu, exec_bind_ok (exec_readFile hread), helement, exec_bind_ok (exec_ofExcept _ _),
    elementHeader_length, htarget, exec_bind_ok (exec_ofExcept _ _), targetHeader_length, hsize,
    hheader, exec_bind_ok (exec_ofExcept _ _), hsuffix, exec_bind_ok (exec_ofExcept _ _)]
  simp only [hdata, crc32_uncomplemented]
  rw [take_length_sub (show 4 = (leBytes 4 0).length by simp), generateDfuSuffix_eq,
    exec_bind_ok (exec_ofExcept _ _), exec_write, ← hdata, take_length_sub (by simp)]
  simp only [dfuBytes, dfuBody, List.append_assoc]

theorem createDfu_error (hread : disk.files filenameBin = some image)
    (h : ¬ ((0 ≤ addr ∧ addr < 2 ^ 32) ∧ 293 + image.length < 2 ^ 32)) :
    (createDfu addr filenameBin filenameOut).exec disk = (.error .structError, disk) := by
  have hsize : layoutSize dfuPrefixStruct + 274 + 8 + image.length = 293 + image.length := by
    rw [show layoutSize dfuPrefixStruct = 11 from rfl]
  rw [createDfu, exec_bind_ok (exec_readFile hread)]
  by_cases ha : 0 ≤ addr ∧ addr < 2 ^ 32 ∧ image.length < 2 ^ 32
  · rw [generateImageElement_eq, if_pos ha, exec_bind_ok (exec_ofExcept _ _), elementHeader_length]
    by_cases hn : 8 + image.length < 2 ^ 32
    · rw [generateTargetPrefix_eq, if_pos hn, exec_bind_ok (exec_ofExcept _ _), targetHeader_length,
        hsize, generateDfuPrefix_eq, if_neg fun hlt => h ⟨⟨ha.1, ha.2.1⟩, hlt⟩]
      exact exec_bind_error (exec_ofExcept _ _)
    · rw [generateTargetPrefix_eq, if_neg hn]
      exact exec_bind_error (exec_ofExcept _ _)
  · rw [generateImageElement_eq, if_neg ha]
    exact exec_bind_error (exec_ofExcept _ _)

end

/-! ## Reading the file back -/

def targetContents (addr : Nat) (image : List UInt8) : DfuTarget where
  signature := TARGET
  alternateSetting := 0
  named := 0
  name := List.replicate 255 0
  size := 8 + image.length
  numElements := 1
  elements := [{ address := addr, size := image.length, data := image }]

/-- The decoded file. -/
def dfuContents (addr : Nat) (image : List UInt8) : DfuFile where
  signature := DFU_SE
  version := 1
  imageSize := 293 + image.length
  numTargets := 1
  targets := [targetContents addr image]
  device := 0xffff
  product := 0xffff
  vendor := 0xffff
  dfuVersion := 0x011a
  suffixSignature := UFD
  suffixLength := 16
  crc := (crcRegister (dfuBody addr image)).toNat

section
variable {addr : Nat} {image : List UInt8}

theorem reads_element (ha : addr < 2 ^ 32) (hn : image.length < 2 ^ 32) :
    Reads readElement (elementHeader addr image.length ++ image)
      { address := addr, size := image.length, data := image } := by
  have haddr : Reads (readUInt 4) (leBytes 4 addr) addr := Reads.uint (by omega)
  have hsize : Reads (readUInt 4) (leBytes 4 image.length) image.length := Reads.uint (by omega)
  have hbytes : elementHeader addr image.length ++ image =
      leBytes 4 addr ++ (leBytes 4 image.length ++ (image ++ [])) := by
    simp only [elementHeader, List.append_assoc, List.append_nil]
  rw [hbytes, readElement]
  exact haddr.bind (hsize.bind ((Reads.bytes image).bind (Reads.pure _)))

theorem reads_target (ha : addr < 2 ^ 32) (hn : 8 + image.length < 2 ^ 32) :
    Reads readTarget (targetHeader (8 + image.length) ++ (elementHeader addr image.length ++ image))
      (targetContents addr image) := by
  have hsig : Reads (readBytes 6) TARGET TARGET := Reads.bytes TARGET
  have halt : Reads (readUInt 1) (leBytes 1 0) 0 := Reads.uint (by decide)
  have hnamed : Reads (readUInt 4) (leBytes 4 0) 0 := Reads.uint (by decide)
  have hname : Reads (readBytes 255) (List.replicate 255 0) (List.replicate 255 0) := by
    have := Reads.bytes (List.replicate 255 (0 : UInt8))
    rwa [List.length_replicate] at this
  have hsize : Reads (readUInt 4) (leBytes 4 (8 + image.length)) (8 + image.length) :=
    Reads.uint (by omega)
  have hnum : Reads (readUInt 4) (leBytes 4 1) 1 := Reads.uint (by decide)
  have hmany := Reads.many (p := readElement) (fun e => elementHeader e.address e.size ++ e.data)
    [⟨addr, image.length, image⟩] (by simpa using reads_element ha (by omega))
  have hbytes : targetHeader (8 + image.length) ++ (elementHeader addr image.length ++ image) =
      TARGET ++ (leBytes 1 0 ++ (leBytes 4 0 ++ (List.replicate 255 0 ++
        (leBytes 4 (8 + image.length) ++ (leBytes 4 1 ++
          (([⟨addr, image.length, image⟩] : List DfuElement).flatMap
            (fun e => elementHeader e.address e.size ++ e.data) ++ [])))))) := by
    simp only [targetHeader, List.append_assoc, List.append_nil, List.flatMap_cons, List.flatMap_nil]
  rw [hbytes, readTarget]
  exact hsig.bind (halt.bind (hnamed.bind (hname.bind (hsize.bind (hnum.bind (hmany.bind
    (Reads.pure _)))))))

theorem reads_dfu (ha : addr < 2 ^ 32) (hn : 293 + image.length < 2 ^ 32) :
    Reads readDfu (dfuBytes addr image) (dfuContents addr image) := by
  have hsig : Reads (readBytes 5) DFU_SE DFU_SE := Reads.bytes DFU_SE
  have hone : Reads (readUInt 1) (leBytes 1 1) 1 := Reads.uint (by decide)
  have hsize : Reads (readUInt 4) (leBytes 4 (293 + image.length)) (293 + image.length) :=
    Reads.uint (by omega)
  have htargets := Reads.many (p := readTarget)
    (fun _ => targetHeader (8 + image.length) ++ (elementHeader addr image.length ++ image))
    [targetContents addr image] (List.forall_mem_singleton.mpr (reads_target ha (by omega)))
  have hany : Reads (readUInt 2) (leBytes 2 0xffff) 0xffff := Reads.uint (by decide)
  have hver : Reads (readUInt 2) (leBytes 2 0x011a) 0x011a := Reads.uint (by decide)
  have hufd : Reads (readBytes 3) UFD UFD := Reads.bytes UFD
  have hlen : Reads (readUInt 1) (leBytes 1 16) 16 := Reads.uint (by decide)
  have hcrc : Reads (readUInt 4) (leBytes 4 (crcRegister (dfuBody addr image)).toNat)
      (crcRegister (dfuBody addr image)).toNat :=
    Reads.uint (by have := (crcRegister (dfuBody addr image)).toNat_lt; omega)
  have hbytes : dfuBytes addr image =
      DFU_SE ++ (leBytes 1 1 ++ (leBytes 4 (293 + image.length) ++ (leBytes 1 1 ++
        ([targetContents addr image].flatMap (fun _ => targetHeader (8 + image.length) ++
            (elementHeader addr image.length ++ image)) ++
          (leBytes 2 0xffff ++ (leBytes 2 0xffff ++ (leBytes 2 0xffff ++ (leBytes 2 0x011a ++
            (UFD ++ (leBytes 1 16 ++
              (leBytes 4 (crcRegister (dfuBody addr image)).toNat ++ []))))))))))) := by
    rw [dfuBytes]
    generalize crcRegister (dfuBody addr image) = c
    simp only [dfuBody, fileHeader, suffixHeader, List.append_assoc, List.append_nil,
      List.flatMap_cons, List.flatMap_nil]
  rw [hbytes, readDfu]
  exact hsig.bind (hone.bind (hsize.bind (hone.bind (htargets.bind (hany.bind (hany.bind
    (hany.bind (hver.bind (hufd.bind (hlen.bind (hcrc.bind (Reads.pure _))))))))))))

end

/-! ## What is packed is decoded -/

/-- The sizes are those of the spans they count, and the CRC is over the file up to it. -/
theorem createDfu_decodes (disk : Disk) (filenameBin filenameOut : String) (image : List UInt8)
    (addr : Int) (hread : disk.files filenameBin = some image) :
    if 0 ≤ addr ∧ addr < 2 ^ 32 ∧ 293 + image.length < 2 ^ 32 then
      ∃ file, (createDfu addr filenameBin filenameOut).exec disk =
          (.ok (), disk.write filenameOut file) ∧
        file.length = 11 + 274 + 8 + image.length + 16 ∧
        readAll readDfu file = some
          { signature := DFU_SE, version := 1, imageSize := file.length - 16, numTargets := 1,
            targets := [
              { signature := TARGET, alternateSetting := 0, named := 0,
                name := List.replicate 255 0, size := file.length - 16 - (11 + 274),
                numElements := 1,
                elements := [{ address := addr.toNat, size := image.length, data := image }] }],
            device := 0xffff, product := 0xffff, vendor := 0xffff, dfuVersion := 0x011a,
            suffixSignature := UFD, suffixLength := 16,
            crc := (crcRegister (file.take (file.length - 4))).toNat }
    else (createDfu addr filenameBin filenameOut).exec disk = (.error .structError, disk) := by
  by_cases h : 0 ≤ addr ∧ addr < 2 ^ 32 ∧ 293 + image.length < 2 ^ 32
  · rw [if_pos h]
    obtain ⟨hnonneg, hlt, hn⟩ := h
    have hlen : (dfuBytes addr.toNat image).length = 309 + image.length := by
      simp only [dfuBytes, List.length_append, dfuBody_length, leBytes_length]
      omega
    have hbody : (dfuBytes addr.toNat image).take ((dfuBytes addr.toNat image).length - 4) =
        dfuBody addr.toNat image := take_length_sub (leBytes_length 4 _).symm
    refine ⟨dfuBytes addr.toNat image, createDfu_ok hread ⟨hnonneg, hlt⟩ hn, by omega, ?_⟩
    rw [(reads_dfu (by omega) hn).all, hbody, hlen, dfuContents, targetContents,
      show 309 + image.length - 16 = 293 + image.length by omega,
      show 293 + image.length - (11 + 274) = 8 + image.length by omega]
  · rw [if_neg h]
    exact createDfu_error hread fun hin => h ⟨hin.1.1, hin.1.2, hin.2⟩

/-- A three-byte image at the start of the flash. -/
theorem createDfu_decodes_flash :
    let disk : Disk := { files := fun name => if name = "fw.bin" then some [1, 2, 3] else none,
                         opened := [] }
    ∃ file, (createDfu 0x08000000 "fw.bin" "fw.dfu").exec disk =
        (.ok (), disk.write "fw.dfu" file) ∧ file.length = 312 := by
  intro disk
  have h := createDfu_decodes disk "fw.bin" "fw.dfu" [1, 2, 3] 0x08000000 rfl
  rw [if_pos (by decide)] at h
  obtain ⟨file, hexec, hlen, -⟩ := h
  exact ⟨file, hexec, hlen⟩

end Relacon.Tools
