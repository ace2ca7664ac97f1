import Mathlib.Tactic

/-! The audio file that is written for each track, and the reader of the MXF library for it. Both
take numbers in a fixed number of bytes, the lowest byte first. -/

namespace Imflib.LittleEndian

def bytes : Nat → Nat → List UInt8
  | 0, _ => []
  | width + 1, n => UInt8.ofNat n :: bytes width (n / 256)

def value : List UInt8 → Nat
  | [] => 0
  | byte :: rest => byte.toNat + 256 * value rest

@[simp] theorem length_bytes (width n : Nat) : (bytes width n).length = width := by
  induction width generalizing n with
  | zero => rfl
  | succ width ih => rw [bytes, List.length_cons, ih]

theorem value_bytes (width n : Nat) : value (bytes width n) = n % 256 ^ width := by
  induction width generalizing n with
  | zero => rw [pow_zero, Nat.mod_one]; rfl
  | succ width ih =>
      have low : (UInt8.ofNat n).toNat = n % 256 := UInt8.toNat_ofNat'
      calc
        value (bytes (width + 1) n) = (UInt8.ofNat n).toNat + 256 * value (bytes width (n / 256)) := rfl
        _ = n % 256 + 256 * (n / 256 % 256 ^ width) := by rw [low, ih]
        _ = n % (256 * 256 ^ width) := (Nat.mod_mul).symm
        _ = n % 256 ^ (width + 1) := by rw [pow_succ']

theorem value_bytes_of_lt {width n : Nat} (fits : n < 256 ^ width) : value (bytes width n) = n := by
  rw [value_bytes, Nat.mod_eq_of_lt fits]

end Imflib.LittleEndian

namespace Imflib.Encoder

open LittleEndian

def fourcc (text : String) : List UInt8 := text.toList.map fun c => UInt8.ofNat c.toNat

/-- `WavMuxer::MuxToFile` -/
def muxToFile (data : List UInt8) (channels : Int16) (sampleRate : Int32) (bitsPerSample : Int16) :
    List UInt8 :=
  -- The sum is one of 64 bits, but the sizes are kept in 32 bits.
  let riffSize : UInt32 := UInt32.ofNat (36 + data.length)
  let formatSize : UInt32 := 16
  let audioFormat : Int16 := 1
  let bytesPerSample : Int16 := bitsPerSample / 8
  let byteRate : Int32 := channels.toInt32 * sampleRate * bytesPerSample.toInt32
  let blockAlign : Int16 := (channels.toInt32 * bytesPerSample.toInt32).toInt16
  let dataSize : UInt32 := UInt32.ofNat data.length
  fourcc "RIFF" ++ bytes 4 riffSize.toNat ++ fourcc "WAVE" ++
    fourcc "fmt " ++ bytes 4 formatSize.toNat ++ bytes 2 audioFormat.toUInt16.toNat ++
    bytes 2 channels.toUInt16.toNat ++ bytes 4 sampleRate.toUInt32.toNat ++
    bytes 4 byteRate.toUInt32.toNat ++ bytes 2 blockAlign.toUInt16.toNat ++
    bytes 2 bitsPerSample.toUInt16.toNat ++
    fourcc "data" ++ bytes 4 dataSize.toNat ++ data

structure SimpleWaveHeader where
  format : UInt16
  nchannels : UInt16
  samplespersec : UInt32
  avgbps : UInt32
  blockalign : UInt16
  bitspersample : UInt16
  cbsize : UInt16
  dataLen : UInt32
  deriving DecidableEq, Repr

/-- Results other than success. Nothing is checked before a read, so it may be outside. -/
inductive WaveError where
  | smallBuf
  | rawFormat
  | outside
  deriving DecidableEq, Repr

namespace SimpleWaveHeader

def new : SimpleWaveHeader := ⟨0, 0, 0, 0, 0, 0, 0, 0⟩

def simpleWavHeaderLength : Nat := 46

/-- The first bytes of a file. The chunk of the data has to start in them. -/
def maxWavHeader : Nat := 1024 * 32

def waveFormatPcm : UInt16 := 1

def waveFormatExtensible : UInt16 := 65534

def field (offset width : Nat) (chunk : List UInt8) : Nat := value ((chunk.drop offset).take width)

/-- The fields of a format chunk. A local variable takes the format, and the member stays. -/
def readFormat (header : SimpleWaveHeader) (chunk : List UInt8) : Except WaveError SimpleWaveHeader :=
  if chunk.length < 2 then .error .outside
  else
    let format := UInt16.ofNat (field 0 2 chunk)
    if format ≠ waveFormatPcm ∧ format ≠ waveFormatExtensible then .error .rawFormat
    else if chunk.length < 16 then .error .outside
    else .ok
      { header with
        nchannels := UInt16.ofNat (field 2 2 chunk)
        samplespersec := UInt32.ofNat (field 4 4 chunk)
        avgbps := UInt32.ofNat (field 8 4 chunk)
        blockalign := UInt16.ofNat (field 12 2 chunk)
        bitspersample := UInt16.ofNat (field 14 2 chunk) }

/-- The chunks, one after another, until the data is found. The result has its position. -/
def scan (bufLen : Nat) (riffLen : UInt32) (header : SimpleWaveHeader) :
    List UInt8 → Except WaveError (SimpleWaveHeader × Nat)
  | [] => .error .rawFormat
  | a :: b :: c :: d :: e :: f :: g :: h :: rest =>
      let chunkSize := UInt32.ofNat (value [e, f, g, h])
      if [a, b, c, d] = fourcc "data" then
        if chunkSize > riffLen then .error .rawFormat
        else .ok ({ header with dataLen := chunkSize }, bufLen - rest.length)
      else if [a, b, c, d] = fourcc "fmt " then
        match readFormat header rest with
        | .error error => .error error
        | .ok header => scan bufLen riffLen header (rest.drop (16 + (chunkSize - 16).toNat))
      else scan bufLen riffLen header (rest.drop chunkSize.toNat)
  | _ => .error .outside
  termination_by chunks => chunks.length
  decreasing_by all_goals simp only [List.length_drop, List.length_cons]; omega

def readFromBuffer (buf : List UInt8) : Except WaveError (SimpleWaveHeader × Nat) :=
  if buf.length < simpleWavHeaderLength then .error .smallBuf
  else if buf.take 4 ≠ fourcc "RIFF" then .error .rawFormat
  else if (buf.drop 8).take 4 ≠ fourcc "WAVE" then .error .rawFormat
  else scan buf.length (UInt32.ofNat (field 4 4 buf)) new (buf.drop 12)

def readFromFile (file : List UInt8) : Except WaveError (SimpleWaveHeader × Nat) :=
  readFromBuffer (file.take maxWavHeader)

end SimpleWaveHeader

namespace SimpleWaveHeader

theorem riff_eq : fourcc "RIFF" = [0x52, 0x49, 0x46, 0x46] := by decide

theorem wave_eq : fourcc "WAVE" = [0x57, 0x41, 0x56, 0x45] := by decide

theorem fmt_eq : fourcc "fmt " = [0x66, 0x6d, 0x74, 0x20] := by decide

theorem data_eq : fourcc "data" = [0x64, 0x61, 0x74, 0x61] := by decide

theorem word_bytes (word : UInt32) : UInt32.ofNat (value (bytes 4 word.toNat)) = word := by
  rw [value_bytes_of_lt word.toNat_lt, UInt32.ofNat_toNat]

theorem short_bytes (short : UInt16) : UInt16.ofNat (value (bytes 2 short.toNat)) = short := by
  rw [value_bytes_of_lt short.toNat_lt, UInt16.ofNat_toNat]

def formatChunk (channels align bits : UInt16) (rate byteRate : UInt32) : List UInt8 :=
  bytes 2 waveFormatPcm.toNat ++ bytes 2 channels.toNat ++ bytes 4 rate.toNat ++
    bytes 4 byteRate.toNat ++ bytes 2 align.toNat ++ bytes 2 bits.toNat

def waveFile (riffSize dataSize : UInt32) (chunk data : List UInt8) : List UInt8 :=
  fourcc "RIFF" ++ bytes 4 riffSize.toNat ++ fourcc "WAVE" ++
    (fourcc "fmt " ++ bytes 4 (16 : UInt32).toNat ++ chunk) ++
    (fourcc "data" ++ bytes 4 dataSize.toNat ++ data)

theorem readFormat_formatChunk (header : SimpleWaveHeader) (channels align bits : UInt16)
    (rate byteRate : UInt32) (rest : List UInt8) :
    readFormat header (formatChunk channels align bits rate byteRate ++ rest) =
      .ok { header with
        nchannels := channels, samplespersec := rate, avgbps := byteRate, blockalign := align
        bitspersample := bits } := by
  have length : (formatChunk channels align bits rate byteRate ++ rest).length = 16 + rest.length := by
    simp only [formatChunk, List.length_append, length_bytes]
  have format : UInt16.ofNat (field 0 2 (formatChunk channels align bits rate byteRate ++ rest)) =
      waveFormatPcm := short_bytes waveFormatPcm
  have fields : UInt16.ofNat (field 2 2 (formatChunk channels align bits rate byteRate ++ rest)) =
        channels ∧
      UInt32.ofNat (field 4 4 (formatChunk channels align bits rate byteRate ++ rest)) = rate ∧
      UInt32.ofNat (field 8 4 (formatChunk channels align bits rate byteRate ++ rest)) = byteRate ∧
      UInt16.ofNat (field 12 2 (formatChunk channels align bits rate byteRate ++ rest)) = align ∧
      UInt16.ofNat (field 14 2 (formatChunk channels align bits rate byteRate ++ rest)) = bits :=
    ⟨short_bytes channels, word_bytes rate, word_bytes byteRate, short_bytes align, short_bytes bits⟩
  obtain ⟨channelsRead, rateRead, byteRateRead, alignRead, bitsRead⟩ := fields
  rw [readFormat, if_neg (by omega)]
  simp only [format, channelsRead, rateRead, byteRateRead, alignRead, bitsRead, ne_eq,
    not_true_eq_false, false_and, if_false]
  rw [if_neg (by omega)]

/-- The data chunk ends the scan. It must not be longer than the whole file is said to be. -/
theorem scan_data (bufLen : Nat) (riffLen dataSize : UInt32) (header : SimpleWaveHeader)
    (data : List UInt8) :
    scan bufLen riffLen header (fourcc "data" ++ bytes 4 dataSize.toNat ++ data) =
      if dataSize > riffLen then .error .rawFormat
      else .ok ({ header with dataLen := dataSize }, bufLen - data.length) := by
  have size := word_bytes dataSize
  simp only [bytes] at size
  simp only [data_eq, bytes, List.cons_append, List.nil_append]
  rw [scan, size, if_pos data_eq.symm]

theorem scan_format (bufLen : Nat) (riffLen : UInt32) (header : SimpleWaveHeader)
    (channels align bits : UInt16) (rate byteRate : UInt32) (rest : List UInt8) :
    scan bufLen riffLen header (fourcc "fmt " ++ bytes 4 (16 : UInt32).toNat ++
        formatChunk channels align bits rate byteRate ++ rest) =
      scan bufLen riffLen { header with
        nchannels := channels, samplespersec := rate, avgbps := byteRate, blockalign := align
        bitspersample := bits } rest := by
  have size := word_bytes 16
  have read := readFormat_formatChunk header channels align bits rate byteRate rest
  have behind : (formatChunk channels align bits rate byteRate ++ rest).drop
      (16 + ((16 : UInt32) - 16).toNat) = rest := rfl
  simp only [bytes] at size
  simp only [fmt_eq, bytes, List.cons_append, List.nil_append]
  rw [scan, size, if_neg (by decide), if_pos fmt_eq.symm, read]
  dsimp only
  rw [behind]

theorem readFromFile_waveFile (riffSize dataSize : UInt32) (channels align bits : UInt16)
    (rate byteRate : UInt32) {data : List UInt8} (long : 2 ≤ data.length) :
    readFromFile (waveFile riffSize dataSize (formatChunk channels align bits rate byteRate) data) =
      if dataSize > riffSize then .error .rawFormat
      else .ok (⟨0, channels, rate, byteRate, align, bits, 0, dataSize⟩, 44) := by
  have front : (waveFile riffSize dataSize (formatChunk channels align bits rate byteRate)
      data).take maxWavHeader = waveFile riffSize dataSize
        (formatChunk channels align bits rate byteRate) (data.take (maxWavHeader - 44)) := rfl
  have tail : 2 ≤ (data.take (maxWavHeader - 44)).length := by
    rw [List.length_take]
    apply Nat.le_min.mpr
    exact ⟨by decide, long⟩
  rw [readFromFile, front]
  generalize data.take (maxWavHeader - 44) = data at tail
  have length : (waveFile riffSize dataSize (formatChunk channels align bits rate byteRate)
      data).length = 44 + data.length := by
    simp only [waveFile, formatChunk, riff_eq, wave_eq, fmt_eq, data_eq, List.length_append,
      length_bytes, List.length_cons, List.length_nil]
    omega
  have enough : ¬ (waveFile riffSize dataSize (formatChunk channels align bits rate byteRate)
      data).length < simpleWavHeaderLength := by
    rw [length, simpleWavHeaderLength]
    omega
  have riff : (waveFile riffSize dataSize (formatChunk channels align bits rate byteRate)
      data).take 4 = fourcc "RIFF" := rfl
  have wave : ((waveFile riffSize dataSize (formatChunk channels align bits rate byteRate)
      data).drop 8).take 4 = fourcc "WAVE" := rfl
  have size : UInt32.ofNat (field 4 4 (waveFile riffSize dataSize
      (formatChunk channels align bits rate byteRate) data)) = riffSize := word_bytes riffSize
  have chunks : (waveFile riffSize dataSize (formatChunk channels align bits rate byteRate)
      data).drop 12 = fourcc "fmt " ++ bytes 4 (16 : UInt32).toNat ++
        formatChunk channels align bits rate byteRate ++
          (fourcc "data" ++ bytes 4 dataSize.toNat ++ data) := rfl
  rw [readFromBuffer, if_neg enough, if_neg (not_not.mpr riff), if_neg (not_not.mpr wave), size, chunks,
    scan_format, scan_data, length, Nat.add_sub_cancel]
  rfl

end SimpleWaveHeader

open SimpleWaveHeader

def Decodes (file data : List UInt8) (channels sampleRate bytesPerSample : Nat) : Prop :=
  ∃ header start, readFromFile file = .ok (header, start) ∧
    header.nchannels.toNat = channels ∧ header.samplespersec.toNat = sampleRate ∧
    header.avgbps.toNat = channels * sampleRate * bytesPerSample ∧
    header.blockalign.toNat = channels * bytesPerSample ∧
    header.bitspersample.toNat = 8 * bytesPerSample ∧
    (file.drop start).take header.dataLen.toNat = data

/-- The sizes are kept in 32 bits, and the one of the whole file is 36 more than the one of the
data. -/
theorem muxToFile_eq (data : List UInt8) (channels : Int16) (sampleRate : Int32)
    (bitsPerSample : Int16) :
    muxToFile data channels sampleRate bitsPerSample =
      waveFile (UInt32.ofNat (36 + data.length)) (UInt32.ofNat data.length)
        (formatChunk channels.toUInt16
          (channels.toInt32 * (bitsPerSample / 8).toInt32).toInt16.toUInt16 bitsPerSample.toUInt16
          sampleRate.toUInt32 (channels.toInt32 * sampleRate * (bitsPerSample / 8).toInt32).toUInt32)
        data := by
  simp only [muxToFile, waveFile, formatChunk, List.append_assoc]
  rfl

section Values

variable {channels : Int16} {sampleRate : Int32}

theorem toNat_toUInt32 {n : Int32} (nonnegative : 0 ≤ n.toInt) : n.toUInt32.toNat = n.toInt.toNat :=
  Int32.toNat_toUInt32_of_le (Int32.le_iff_toInt_le.mpr nonnegative)

theorem toNat_toUInt16 {n : Int16} (nonnegative : 0 ≤ n.toInt) : n.toUInt16.toNat = n.toInt.toNat :=
  Int16.toNat_toUInt16_of_le (Int16.le_iff_toInt_le.mpr nonnegative)

theorem toNat_blockAlign (least : 1 ≤ channels.toInt) (most : channels.toInt ≤ 64) :
    (channels.toInt32 * ((24 : Int16) / 8).toInt32).toInt16.toUInt16.toNat =
      channels.toInt.toNat * 3 := by
  have three : ((24 : Int16) / 8).toInt32.toInt = 3 := by decide
  have inInt : (channels.toInt * 3).bmod (2 ^ 32) = channels.toInt * 3 := by
    apply Int.bmod_eq_of_le_mul_two <;> omega
  have inShort : (channels.toInt * 3).bmod (2 ^ 16) = channels.toInt * 3 := by
    apply Int.bmod_eq_of_le_mul_two <;> omega
  have product : (channels.toInt32 * ((24 : Int16) / 8).toInt32).toInt16.toInt =
      channels.toInt * 3 := by
    rw [Int32.toInt_toInt16, Int32.toInt_mul, Int16.toInt_toInt32, three, inInt, inShort]
  rw [toNat_toUInt16 (by omega), product]
  omega

theorem toNat_byteRate (least : 1 ≤ channels.toInt) (most : channels.toInt ≤ 64)
    (rate : sampleRate.toInt = 48000 ∨ sampleRate.toInt = 96000) :
    (channels.toInt32 * sampleRate * ((24 : Int16) / 8).toInt32).toUInt32.toNat =
      channels.toInt.toNat * sampleRate.toInt.toNat * 3 := by
  have three : ((24 : Int16) / 8).toInt32.toInt = 3 := by decide
  have samples : (channels.toInt32 * sampleRate).toInt = channels.toInt * sampleRate.toInt := by
    rw [Int32.toInt_mul, Int16.toInt_toInt32]
    apply Int.bmod_eq_of_le_mul_two <;> rcases rate with rate | rate <;> rw [rate] <;> omega
  have product : (channels.toInt32 * sampleRate * ((24 : Int16) / 8).toInt32).toInt =
      channels.toInt * sampleRate.toInt * 3 := by
    rw [Int32.toInt_mul, samples, three]
    apply Int.bmod_eq_of_le_mul_two <;> rcases rate with rate | rate <;> rw [rate] <;> omega
  have nonnegative : 0 ≤ channels.toInt * sampleRate.toInt * 3 := by
    rcases rate with rate | rate <;> rw [rate] <;> omega
  rw [toNat_toUInt32 (product ▸ nonnegative), product]
  rcases rate with rate | rate <;> rw [rate] <;> simp only [Int.reduceToNat] <;> omega

end Values

/-- The audio file of a track is read back as long as its size fits into 32 bits. A longer one is
rejected, or its data is cut off. -/
theorem wav_decodes_iff {data : List UInt8} {channels : Int16} {sampleRate : Int32} {frames : Nat}
    (least : 1 ≤ channels.toInt) (most : channels.toInt ≤ 64)
    (rate : sampleRate.toInt = 48000 ∨ sampleRate.toInt = 96000) (positive : 0 < frames)
    (whole : data.length = frames * (channels.toInt.toNat * 3)) :
    Decodes (muxToFile data channels sampleRate 24) data channels.toInt.toNat
      sampleRate.toInt.toNat 3 ↔ 36 + data.length < 2 ^ 32 := by
  have long : 2 ≤ data.length := by
    have frame : 3 ≤ channels.toInt.toNat * 3 := by omega
    have all : channels.toInt.toNat * 3 ≤ data.length := by
      rw [whole]
      exact Nat.le_mul_of_pos_left _ positive
    omega
  have size : (UInt32.ofNat data.length).toNat = data.length % 2 ^ 32 := UInt32.toNat_ofNat'
  have riffSize : (UInt32.ofNat (36 + data.length)).toNat = (36 + data.length) % 2 ^ 32 :=
    UInt32.toNat_ofNat'
  rw [muxToFile_eq, Decodes, readFromFile_waveFile _ _ _ _ _ _ _ long]
  constructor
  · rintro ⟨header, start, read, -, -, -, -, -, same⟩
    split at read
    · cases read
    · rename_i fits
      cases Except.ok.inj read
      by_contra large
      have notLonger := Nat.le_of_not_lt fun less => fits (UInt32.lt_iff_toNat_lt.mpr less)
      rw [size, riffSize] at notLonger
      have taken : data.take (UInt32.ofNat data.length).toNat = data := same
      have cut := congrArg List.length taken
      rw [List.length_take, size] at cut
      omega
  · intro fits
    have sizes : ¬ UInt32.ofNat data.length > UInt32.ofNat (36 + data.length) := by
      intro less
      have order := UInt32.lt_iff_toNat_lt.mp less
      rw [size, riffSize] at order
      omega
    have rateNonnegative : 0 ≤ sampleRate.toInt := by
      rcases rate with rate | rate <;> rw [rate] <;> decide
    have channelsRead : channels.toUInt16.toNat = channels.toInt.toNat := toNat_toUInt16 (by omega)
    rw [if_neg sizes]
    refine ⟨_, _, rfl, channelsRead, toNat_toUInt32 rateNonnegative,
      toNat_byteRate least most rate, toNat_blockAlign least most, rfl, ?_⟩
    change data.take (UInt32.ofNat data.length).toNat = data
    rw [size, Nat.mod_eq_of_lt (by omega), List.take_length]

/-- Three frames of two channels. -/
theorem wav_decodes_stereo :
    Decodes (muxToFile [1, 2, 3, 101, 102, 103, 4, 5, 6, 104, 105, 106, 7, 8, 9, 107, 108, 109] 2
      96000 24) [1, 2, 3, 101, 102, 103, 4, 5, 6, 104, 105, 106, 7, 8, 9, 107, 108, 109] 2 96000 3 :=
  (@wav_decodes_iff [1, 2, 3, 101, 102, 103, 4, 5, 6, 104, 105, 106, 7, 8, 9, 107, 108, 109] 2 96000
    3 (by decide) (by decide) (.inr (by decide)) (by decide) rfl).mpr (by decide)

/-- Four gigabytes of one channel, eight hours of it. -/
theorem long_wav_is_rejected : ¬ ∀ (data : List UInt8) (channels : Int16) (sampleRate : Int32)
    (frames : Nat), 1 ≤ channels.toInt → channels.toInt ≤ 64 →
    sampleRate.toInt = 48000 ∨ sampleRate.toInt = 96000 → 0 < frames →
    data.length = frames * (channels.toInt.toNat * 3) →
    Decodes (muxToFile data channels sampleRate 24) data channels.toInt.toNat
      sampleRate.toInt.toNat 3 := by
  intro decodes
  have length : (List.replicate 4294967262 (0 : UInt8)).length =
      1431655754 * ((1 : Int16).toInt.toNat * 3) := by
    rw [List.length_replicate]
    rfl
  have read := decodes (List.replicate 4294967262 0) 1 48000 1431655754 (by decide) (by decide)
    (.inl (by decide)) (by decide) length
  have fits := (wav_decodes_iff (by decide) (by decide) (.inl (by decide)) (by decide) length).mp read
  rw [List.length_replicate] at fits
  omega

end Imflib.Encoder
