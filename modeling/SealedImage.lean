import SealedImage.Main
import SealedImage.Redacted
import SealedImage.Proofs.Authenticity
import SealedImage.Proofs.AtomicFiles
import SealedImage.Proofs.Tags
import SealedImage.Proofs.Codec
import SealedImage.Proofs.CounterMode
import SealedImage.Proofs.KeyTransport
import SealedImage.Proofs.KeyAgreement
import SealedImage.Proofs.Release
import SealedImage.Proofs.RoundTrip
import SealedImage.Proofs.Tampering
import SealedImage.Proofs.Grammar
import SealedImage.Proofs.Armor
import SealedImage.Proofs.Elements
import SealedImage.Proofs.KeySets
import SealedImage.Proofs.KeyText
import SealedImage.Proofs.Precedence
import SealedImage.Proofs.StoredKeys
import SealedImage.Proofs.Fields
import SealedImage.Proofs.Traces
import SealedImage.Proofs.Draws
import SealedImage.Proofs.Preparation
import SealedImage.Proofs.Calls
import SealedImage.Proofs.FreshDraws
import SealedImage.Proofs.Canonical
import SealedImage.Proofs.Discretion
import SealedImage.Proofs.InPlace
import SealedImage.Proofs.UnreadOctets
import SealedImage.Proofs.OneImage
import SealedImage.Proofs.GroupOrder
import SealedImage.Proofs.Recipients
import SealedImage.Proofs.Journals
import SealedImage.Proofs.KeySizes
import SealedImage.Proofs.Commands
import SealedImage.Proofs.Classification
import SealedImage.Proofs.Documents
import SealedImage.Proofs.Preambles
import SealedImage.Proofs.Surroundings
import SealedImage.Proofs.Forms
import SealedImage.Proofs.LoadedKeys
import SealedImage.Proofs.Unwrapping
import SealedImage.Proofs.RawPoints
import SealedImage.Proofs.Slots
import SealedImage.Proofs.Sniffing
import SealedImage.Proofs.Stages
import SealedImage.Proofs.Keystream
import SealedImage.Proofs.SeedDraws
