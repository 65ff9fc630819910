import Chip8.Picture

/-!
Image files of pictures. Nothing is compressed, and every format keeps all pixels. A file name tells
its format by the extension; the lossless formats that are not written themselves get the contents
of a PNG file, which viewers know by its first bytes.
-/

namespace Chip8

inductive ImageFormat where
  | png
  | bitmap
  | pixmap
  deriving DecidableEq, Repr

namespace ImageFormat

def ofExtension? (extension : String) : Option ImageFormat :=
  if extension ∈ [".bmp", ".dib"] then some bitmap
  else if extension ∈ [".ppm", ".pnm"] then some pixmap
  else if extension ∈ [".png", ".apng", ".gif", ".tif", ".tiff", ".tga", ".pcx", ".sgi", ".rgb",
      ".im"] then some png
  else none

def lowFirst : Nat → Nat → List UInt8
  | 0, _ => []
  | count + 1, n => UInt8.ofNat n :: lowFirst count (n / 256)

def highFirst (count n : Nat) : List UInt8 := (lowFirst count n).reverse

private def ascii (text : String) : List UInt8 :=
  text.toList.map fun c => UInt8.ofNat c.toNat

private def rgb (c : Color) : List UInt8 := [c.red, c.green, c.blue]

private def bgr (c : Color) : List UInt8 := [c.blue, c.green, c.red]

def cyclicCheck (bytes : List UInt8) : UInt32 :=
  let shift (r : UInt32) : UInt32 :=
    if r % 2 = 1 then (r >>> 1) ^^^ 0xEDB88320 else r >>> 1
  let feed (r : UInt32) (b : UInt8) : UInt32 :=
    shift (shift (shift (shift (shift (shift (shift (shift (r ^^^ b.toUInt32))))))))
  (bytes.foldl feed 0xFFFFFFFF) ^^^ (0xFFFFFFFF : UInt32)

def runningSums (bytes : List UInt8) : Nat :=
  let sums := bytes.foldl (fun (s : Nat × Nat) b =>
    let low := (s.1 + b.toNat) % 65521
    (low, (s.2 + low) % 65521)) (1, 0)
  sums.2 * 65536 + sums.1

private def chunk (kind : String) (body : List UInt8) : List UInt8 :=
  let named := ascii kind ++ body
  highFirst 4 body.length ++ named ++ highFirst 4 (cyclicCheck named).toNat

private def stored : Nat → List UInt8 → List (List UInt8)
  | 0, _ => []
  | fuel + 1, bytes =>
    let block := bytes.take 65535
    let rest := bytes.drop 65535
    let last : UInt8 := if rest.isEmpty then 1 else 0
    let head := last :: (lowFirst 2 block.length ++ lowFirst 2 (65535 - block.length))
    (head ++ block) :: (if rest.isEmpty then [] else stored fuel rest)

private def stream (bytes : List UInt8) : List UInt8 :=
  0x78 :: 0x01 :: ((stored (bytes.length + 1) bytes).flatten ++ highFirst 4 (runningSums bytes))

private def encodePng (picture : Picture) : List UInt8 :=
  let rows := picture.rows.toList.flatMap fun row => 0 :: row.toList.flatMap rgb
  [0x89, 0x50, 0x4E, 0x47, 0x0D, 0x0A, 0x1A, 0x0A] ++
    chunk "IHDR" (highFirst 4 picture.width ++ highFirst 4 picture.height ++ [8, 2, 0, 0, 0]) ++
    chunk "IDAT" (stream rows) ++ chunk "IEND" []

/-- Rows of a bitmap go upwards, and each is filled up to four bytes. -/
private def encodeBitmap (picture : Picture) : List UInt8 :=
  let fill := List.replicate (picture.width % 4) (0 : UInt8)
  let body := picture.rows.toList.reverse.flatMap fun row => row.toList.flatMap bgr ++ fill
  ascii "BM" ++ lowFirst 4 (54 + body.length) ++ lowFirst 4 0 ++ lowFirst 4 54 ++ lowFirst 4 40 ++
    lowFirst 4 picture.width ++ lowFirst 4 picture.height ++ lowFirst 2 1 ++ lowFirst 2 24 ++
    lowFirst 4 0 ++ lowFirst 4 body.length ++ lowFirst 4 3780 ++ lowFirst 4 3780 ++ lowFirst 8 0 ++
    body

private def encodePixmap (picture : Picture) : List UInt8 :=
  ascii ("P6\n" ++ toString picture.width ++ " " ++ toString picture.height ++ "\n255\n") ++
    picture.rows.toList.flatMap fun row => row.toList.flatMap rgb

def encode (format : ImageFormat) (picture : Picture) : List UInt8 :=
  match format with
  | png => encodePng picture
  | bitmap => encodeBitmap picture
  | pixmap => encodePixmap picture

end ImageFormat

end Chip8
