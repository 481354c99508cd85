import Hostap.Ap.DynVlan
import Hostap.Ap.StaTable
import Hostap.Auth.FindPtk
import Hostap.Auth.Requests
import Hostap.Auth.Rx
import Hostap.Auth.RxDrop
import Hostap.Auth.Sm
import Hostap.Bss.Ageing
import Hostap.Bss.Consistent
import Hostap.Bss.Runs
import Hostap.Bss.Table
import Hostap.Crypto
import Hostap.Crypto.Aead
import Hostap.Crypto.Aes
import Hostap.Crypto.AesWrap
import Hostap.Crypto.Ccm
import Hostap.Crypto.Cipher
import Hostap.Crypto.Gcm
import Hostap.Crypto.Hmac
import Hostap.Crypto.Md5Vector
import Hostap.Crypto.Milenage
import Hostap.Crypto.MsFuncs
import Hostap.Crypto.Omac1
import Hostap.Crypto.Rc4
import Hostap.Crypto.Sha1
import Hostap.Crypto.Sha256
import Hostap.Crypto.SivEax
import Hostap.Dpp.Auth
import Hostap.Dpp.Channel
import Hostap.Dpp.Common
import Hostap.Dpp.Deref
import Hostap.Dpp.Present
import Hostap.Dpp.Soundness
import Hostap.Dpp.Uri
import Hostap.Dpp.UriChannels
import Hostap.Dpp.Verified
import Hostap.Eap.Erp
import Hostap.Eap.PeerAuth
import Hostap.Eap.PeerInv
import Hostap.Eap.PeerSm
import Hostap.Eap.PeerSteps
import Hostap.Eap.PeerSuccess
import Hostap.Eap.PwdAgreement
import Hostap.Eap.PwdAuth
import Hostap.Eap.PwdCommon
import Hostap.Eap.PwdElement
import Hostap.Eap.PwdFragments
import Hostap.Eap.PwdPeer
import Hostap.Eap.PwdPeerInv
import Hostap.Eap.PwdReassembly
import Hostap.Eap.PwdServer
import Hostap.Eap.PwdServerInv
import Hostap.Eap.ServerAuth
import Hostap.Eap.ServerInv
import Hostap.Eap.ServerPresence
import Hostap.Eap.ServerSm
import Hostap.Eap.ServerSteps
import Hostap.Ft.AuthReq
import Hostap.Ft.Ies
import Hostap.Ft.IesSpans
import Hostap.Ft.Reassoc
import Hostap.Ft.Rrb
import Hostap.Ft.SeqReplay
import Hostap.Ft.SeqWindow
import Hostap.Ft.SuppInstall
import Hostap.Ft.Supplicant
import Hostap.Ies.CandidateList
import Hostap.Ies.LastElem
import Hostap.Ies.ParseElems
import Hostap.Lib.Access
import Hostap.Lib.Aead
import Hostap.Lib.Attempt
import Hostap.Lib.BlockCipher
import Hostap.Lib.BlockHash
import Hostap.Lib.Bounded
import Hostap.Lib.Buffer
import Hostap.Lib.Calls
import Hostap.Lib.Chained
import Hostap.Lib.Cmac
import Hostap.Lib.Cursor
import Hostap.Lib.Der
import Hostap.Lib.Dragonfly
import Hostap.Lib.Except
import Hostap.Lib.Feed
import Hostap.Lib.Feedback
import Hostap.Lib.FirstBits
import Hostap.Lib.FirstMatch
import Hostap.Lib.FixedArray
import Hostap.Lib.Grouped
import Hostap.Lib.Octets
import Hostap.Lib.Output
import Hostap.Lib.Prog
import Hostap.Lib.Reads
import Hostap.Lib.Rsa
import Hostap.Lib.Run
import Hostap.Lib.Slots
import Hostap.Lib.SortedList
import Hostap.Lib.Spans
import Hostap.Lib.Tlv
import Hostap.P2p.Channels
import Hostap.P2p.GoChannel
import Hostap.Pmksa.AuthCache
import Hostap.Pmksa.SuppCache
import Hostap.Radius.Client
import Hostap.Radius.InPlace
import Hostap.Radius.Md5
import Hostap.Radius.Message
import Hostap.Radius.MppeKeys
import Hostap.Rsn.Common
import Hostap.Rsn.GenIe
import Hostap.Rsn.Ie
import Hostap.Rsn.IeGrammar
import Hostap.Rsn.IeRoundTrip
import Hostap.Rsn.InsertPmkid
import Hostap.Rsn.KeyData
import Hostap.Rsn.SmallLib
import Hostap.Rsn.Validate
import Hostap.Sae.Agreement
import Hostap.Sae.AntiClogging
import Hostap.Sae.Ap
import Hostap.Sae.CommitFormat
import Hostap.Sae.CommitReads
import Hostap.Sae.Data
import Hostap.Sae.Frames
import Hostap.Sae.GroupSelection
import Hostap.Sae.Keying
import Hostap.Sae.LeastCounter
import Hostap.Sae.Machine
import Hostap.Sae.PasswordElement
import Hostap.Sae.Presence
import Hostap.Sae.ReusedScalar
import Hostap.Sae.SmallCurve
import Hostap.Sae.Steps
import Hostap.Supp.Authenticity
import Hostap.Supp.Reinstall
import Hostap.Supp.Rx
import Hostap.Supp.Sm
import Hostap.Supp.Steps
import Hostap.Tls.Asn1
import Hostap.Tls.Asn1Header
import Hostap.Tls.Asn1Read
import Hostap.Tls.NameMatch
import Hostap.Tls.NameOctets
import Hostap.Tls.Pkcs1
import Hostap.Tls.Pkcs1Blocks
import Hostap.Tls.SignatureFormat
import Hostap.Tls.X509
import Hostap.Tls.X509Chain
import Hostap.Tls.X509Inside
import Hostap.Tls.X509Ranges
import Hostap.Tls.X509Reader
import Hostap.Utils.Base64
import Hostap.Utils.Common
import Hostap.Utils.EloopSockets
import Hostap.Utils.EloopTimers
import Hostap.Utils.Json
import Hostap.Utils.JsonReads
import Hostap.Utils.JsonString
import Hostap.Utils.JsonText
import Hostap.Utils.JsonTree
import Hostap.Utils.Printf
import Hostap.Utils.Utf8
import Hostap.Wps.HttpBody
import Hostap.Wps.HttpBounds
import Hostap.Wps.HttpCuts
import Hostap.Wps.HttpFields
import Hostap.Wps.HttpHdr
import Hostap.Wps.HttpHdrBounds
import Hostap.Wps.HttpOctets
import Hostap.Wps.HttpRead
